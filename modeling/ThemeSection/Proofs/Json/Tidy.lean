import ThemeSection.Proofs.Json.RoundTrip
import ThemeSection.Proofs.Json.Scan
import ThemeSection.Proofs.Json.Shape

/-!
Values that have been read, changed and printed, and what reading them again gives. A value that was
read is tidy, it stays so when texts are set in it and fields are left out, and what its text reads
as has the same keys, texts and lists: only numbers may have changed.
-/

namespace ThemeSection.Json

namespace Value

/-- Whether each object in a value has each key once. -/
def Settled (v : Value) : Prop :=
  v.settle = v

theorem settleItems_eq_map (items : List Value) : settleItems items = items.map settle := by
  induction items with
  | nil => rfl
  | cons item rest ih => rw [settleItems, ih, List.map_cons]

theorem settleFields_eq_map (fields : List (String × Value)) :
    settleFields fields = fields.map fun field => (field.1, field.2.settle) := by
  induction fields with
  | nil => rfl
  | cons field rest ih => rw [settleFields, ih, List.map_cons]

theorem map_eq_self_iff {α : Type} {f : α → α} {l : List α} : l.map f = l ↔ ∀ a ∈ l, f a = a := by
  rw [show (l.map f = l) = (l.map f = l.map id) by rw [List.map_id], List.map_inj_left]
  rfl

theorem keys_settleFields (fields : Fields) : Fields.keys (settleFields fields) = fields.keys := by
  simp [settleFields_eq_map, Fields.keys]

theorem settled_array_iff {items : List Value} :
    (array items).Settled ↔ ∀ item ∈ items, item.Settled := by
  rw [Settled, settle, settleItems_eq_map, array.injEq, map_eq_self_iff]
  rfl

theorem settled_object_iff {fields : Fields} :
    (object fields).Settled ↔ fields.keys.Nodup ∧ ∀ field ∈ fields, field.2.Settled := by
  have hmap : settleFields fields = fields ↔ ∀ field ∈ fields, field.2.Settled := by
    rw [settleFields_eq_map, map_eq_self_iff]
    exact forall₂_congr fun field _ => by simp [Prod.ext_iff, Settled]
  rw [Settled, settle, object.injEq]
  constructor
  · intro h
    have hkeys : fields.keys.Nodup := by
      rw [← h]
      exact (Fields.merge_invariant _).1
    rw [Fields.merge_of_nodup (by rwa [keys_settleFields])] at h
    exact ⟨hkeys, hmap.1 h⟩
  · rintro ⟨hkeys, hfields⟩
    rw [hmap.2 hfields, Fields.merge_of_nodup hkeys]

mutual

theorem settled_settle : ∀ v : Value, v.settle.Settled
  | null | bool _ | number _ | string _ => rfl
  | array items => by
    rw [settle, settled_array_iff]
    exact settled_settleItems items
  | object fields => by
    rw [settle, settled_object_iff]
    obtain ⟨hkeys, hmem⟩ := Fields.merge_invariant (settleFields fields)
    exact ⟨hkeys, fun field hfield => settled_settleFields fields field (hmem field hfield)⟩

theorem settled_settleItems : ∀ items : List Value, ∀ item ∈ settleItems items, item.Settled
  | [] => List.forall_mem_nil _
  | item :: rest => List.forall_mem_cons.2 ⟨settled_settle item, settled_settleItems rest⟩

theorem settled_settleFields : ∀ fields : List (String × Value),
    ∀ field ∈ settleFields fields, field.2.Settled
  | [] => List.forall_mem_nil _
  | (_, value) :: rest => List.forall_mem_cons.2 ⟨settled_settle value, settled_settleFields rest⟩

end

/-- A property of values of bounded height that comes from their parts: a list has it if its items
do, and an object if it has each key once and its values have the property. -/
structure Hereditary (P : Nat → Value → Prop) : Prop where
  string (n : Nat) (s : String) : P n (string s)
  array_succ (n : Nat) (items : List Value) : P (n + 1) (array items) ↔ ∀ item ∈ items, P n item
  object_succ (n : Nat) (fields : Fields) :
    P (n + 1) (object fields) ↔ fields.keys.Nodup ∧ ∀ field ∈ fields, P n field.2
  array_zero (items : List Value) : ¬ P 0 (array items)
  object_zero (fields : Fields) : ¬ P 0 (object fields)

section

variable {P : Nat → Value → Prop} (hP : Hereditary P) {n : Nat} {fields : Fields}
include hP

/-- An object leaves room for its fields. -/
theorem Hereditary.exists_succ (h : P n (object fields)) : ∃ m, n = m + 1 := by
  cases n with
  | zero => exact absurd h (hP.object_zero fields)
  | succ m => exact ⟨m, rfl⟩

theorem Hereditary.filter_array {items : List Value} (h : P n (array items)) (keep : Value → Bool) :
    P n (array (items.filter keep)) := by
  cases n with
  | zero => exact absurd h (hP.array_zero items)
  | succ m =>
    rw [hP.array_succ] at h ⊢
    exact fun item hitem => h item (List.mem_of_mem_filter hitem)

theorem Hereditary.filter (h : P n (object fields)) (keep : String × Value → Bool) :
    P n (object (fields.filter keep)) := by
  obtain ⟨m, rfl⟩ := hP.exists_succ h
  rw [hP.object_succ] at h ⊢
  exact ⟨h.1.sublist (List.filter_sublist.map _),
    fun field hfield => h.2 field (List.mem_of_mem_filter hfield)⟩

theorem Hereditary.get? (h : P (n + 1) (object fields)) {key : String} {value : Value}
    (hget : fields.get? key = some value) : P n value := by
  obtain ⟨before, after, rfl, -⟩ := List.lookup_eq_some_iff.1 hget
  exact ((hP.object_succ n _).1 h).2 (key, value) (by simp)

theorem Hereditary.set (h : P (n + 1) (object fields)) {value : Value} (hvalue : P n value)
    (key : String) : P (n + 1) (object (fields.set key value)) := by
  rw [hP.object_succ] at h ⊢
  refine ⟨?_, fun field hfield => ?_⟩
  · rw [Fields.keys_set]
    split
    case isTrue => exact h.1
    case isFalse hkey => exact h.1.append (List.nodup_singleton key) (by simpa using hkey)
  · rcases Fields.mem_of_mem_set hfield with rfl | hfield
    · exact hvalue
    · exact h.2 field hfield

end

/-- A property that lists and objects have if their parts do, together with a bound on the height. -/
theorem hereditary_and_height {Q : Value → Prop} (hstring : ∀ s, Q (string s))
    (harray : ∀ items, Q (array items) ↔ ∀ item ∈ items, Q item)
    (hobject : ∀ fields : Fields,
      Q (object fields) ↔ fields.keys.Nodup ∧ ∀ field ∈ fields, Q field.2) :
    Hereditary fun n v => Q v ∧ v.height ≤ n where
  string n s := ⟨hstring s, Nat.zero_le n⟩
  array_succ n items := by
    rw [harray, height, Nat.add_le_add_iff_right, heightItems_le_iff, ← forall₂_and]
  object_succ n fields := by
    rw [hobject, height, Nat.add_le_add_iff_right, heightFields_le_iff, and_assoc, ← forall₂_and]
  array_zero items h := by
    have hheight := h.2
    rw [height] at hheight
    omega
  object_zero fields h := by
    have hheight := h.2
    rw [height] at hheight
    omega

/-- A settled value in which lists and objects nest at most `n` deep. -/
def Tidy (n : Nat) (v : Value) : Prop :=
  v.Settled ∧ v.height ≤ n

theorem hereditary_tidy : Hereditary Tidy :=
  hereditary_and_height (fun _ => rfl) (fun _ => settled_array_iff) fun _ => settled_object_iff

/-- Exact values nest like tidy ones. -/
theorem hereditary_exact : Hereditary fun n v => v.Exact ∧ v.height ≤ n :=
  hereditary_and_height (fun _ => trivial)
    (fun items => by rw [Exact, exactItems_iff])
    fun fields => by rw [Exact, exactFields_iff]

/-- What the fields of an object read back as: the same keys, each with what its value reads back as.
-/
def Reread (fields others : Fields) : Prop :=
  List.Forall₂ (fun field other => other.1 = field.1 ∧ field.2.again? = some other.2) fields others

theorem againItems?_eq_some_iff {items others : List Value} :
    againItems? items = some others ↔
      List.Forall₂ (fun item other => item.again? = some other) items others := by
  induction items generalizing others with
  | nil => cases others <;> simp [againItems?]
  | cons item rest ih =>
    rw [againItems?]
    cases others with
    | nil => simp [Option.bind_eq_some_iff]
    | cons other others => simp [Option.bind_eq_some_iff, ih]

theorem againFields?_eq_some_iff {fields others : List (String × Value)} :
    againFields? fields = some others ↔ Reread fields others := by
  induction fields generalizing others with
  | nil => cases others <;> simp [againFields?, Reread]
  | cons field rest ih =>
    rw [againFields?]
    cases others with
    | nil => simp [Option.bind_eq_some_iff, Reread]
    | cons other others =>
      obtain ⟨key, value⟩ := other
      simp only [Option.bind_eq_some_iff, Option.map_eq_some_iff, ih, Reread, List.forall₂_cons,
        List.cons.injEq, Prod.mk.injEq]
      constructor
      · rintro ⟨w, hw, ws, hws, ⟨rfl, rfl⟩, rfl⟩
        exact ⟨⟨rfl, hw⟩, hws⟩
      · rintro ⟨⟨rfl, hw⟩, hws⟩
        exact ⟨value, hw, others, hws, ⟨rfl, rfl⟩, rfl⟩

theorem again?_array_eq_some_iff {items : List Value} {w : Value} :
    (array items).again? = some w ↔ ∃ others, w = array others ∧
      List.Forall₂ (fun item other => item.again? = some other) items others := by
  rw [again?, Option.map_eq_some_iff]
  simp only [againItems?_eq_some_iff]
  exact exists_congr fun others => and_comm.trans (and_congr_left' eq_comm)

theorem again?_object_eq_some_iff {fields : Fields} {w : Value} :
    (object fields).again? = some w ↔ ∃ others, w = object others ∧ Reread fields others := by
  rw [again?, Option.map_eq_some_iff]
  simp only [againFields?_eq_some_iff]
  exact exists_congr fun others => and_comm.trans (and_congr_left' eq_comm)

theorem Reread.keys {fields others : Fields} (h : Reread fields others) :
    others.keys = fields.keys := by
  induction h with
  | nil => rfl
  | cons hfield _ ih => rw [Fields.keys_cons, Fields.keys_cons, ih, hfield.1]

/-- A key has what its value reads back as. -/
theorem Reread.get? {fields others : Fields} (h : Reread fields others) (key : String) :
    Option.Rel (fun v w => v.again? = some w) (fields.get? key) (others.get? key) := by
  induction h with
  | nil => exact .none
  | @cons field other fields others hfield _ ih =>
    obtain ⟨name, v⟩ := field
    obtain ⟨name', w⟩ := other
    obtain ⟨rfl, hagain⟩ := hfield
    rw [Fields.get?_cons, Fields.get?_cons]
    split
    case isTrue => exact .some hagain
    case isFalse => exact ih

section

variable {v w : Value} (h : v.again? = some w)
include h

theorem str?_of_again? : w.str? = v.str? := by
  cases v with
  | null | bool | string =>
    obtain rfl := Option.some.inj h
    rfl
  | number n =>
    rcases again?_number n h with rfl | ⟨m, rfl⟩ <;> rfl
  | array items =>
    obtain ⟨others, rfl, -⟩ := again?_array_eq_some_iff.1 h
    rfl
  | object fields =>
    obtain ⟨others, rfl, -⟩ := again?_object_eq_some_iff.1 h
    rfl

theorem rel_object?_of_again? : Option.Rel Reread v.object? w.object? := by
  cases v with
  | null | bool | string =>
    obtain rfl := Option.some.inj h
    exact .none
  | number n =>
    rcases again?_number n h with rfl | ⟨m, rfl⟩ <;> exact .none
  | array items =>
    obtain ⟨others, rfl, -⟩ := again?_array_eq_some_iff.1 h
    exact .none
  | object fields =>
    obtain ⟨others, rfl, hfields⟩ := again?_object_eq_some_iff.1 h
    exact .some hfields

theorem rel_array?_of_again? :
    Option.Rel (List.Forall₂ fun item other => item.again? = some other) v.array? w.array? := by
  cases v with
  | null | bool | string =>
    obtain rfl := Option.some.inj h
    exact .none
  | number n =>
    rcases again?_number n h with rfl | ⟨m, rfl⟩ <;> exact .none
  | array items =>
    obtain ⟨others, rfl, hitems⟩ := again?_array_eq_some_iff.1 h
    exact .some hitems
  | object fields =>
    obtain ⟨others, rfl, -⟩ := again?_object_eq_some_iff.1 h
    exact .none

end

theorem rel_bind {α β γ δ : Type} {R : α → β → Prop} {S : γ → δ → Prop} {x : Option α}
    {y : Option β} {f : α → Option γ} {g : β → Option δ} (h : Option.Rel R x y)
    (hfg : ∀ a b, R a b → Option.Rel S (f a) (g b)) : Option.Rel S (x.bind f) (y.bind g) := by
  cases h with
  | none => exact .none
  | some hab => exact hfg _ _ hab

mutual

theorem settled_of_again? : ∀ (v : Value) {w : Value}, v.again? = some w → v.Settled → w.Settled
  | null, _, h, _ | bool _, _, h, _ | string _, _, h, _ => by
    obtain rfl := Option.some.inj h
    rfl
  | number n, _, h, _ => by
    rcases again?_number n h with rfl | ⟨m, rfl⟩ <;> rfl
  | array items, _, h, hsettled => by
    obtain ⟨others, rfl, hitems⟩ := again?_array_eq_some_iff.1 h
    exact settled_array_iff.2 (settled_of_againItems? items hitems (settled_array_iff.1 hsettled))
  | object fields, _, h, hsettled => by
    obtain ⟨others, rfl, hfields⟩ := again?_object_eq_some_iff.1 h
    obtain ⟨hkeys, hvalues⟩ := settled_object_iff.1 hsettled
    exact settled_object_iff.2
      ⟨hfields.keys ▸ hkeys, settled_of_againFields? fields hfields hvalues⟩

theorem settled_of_againItems? : ∀ (items : List Value) {others : List Value},
    List.Forall₂ (fun item other => item.again? = some other) items others →
      (∀ item ∈ items, item.Settled) → ∀ other ∈ others, other.Settled
  | [], _, .nil, _ => List.forall_mem_nil _
  | item :: rest, _, .cons hitem hrest, hsettled => by
    obtain ⟨hfirst, hothers⟩ := List.forall_mem_cons.1 hsettled
    exact List.forall_mem_cons.2
      ⟨settled_of_again? item hitem hfirst, settled_of_againItems? rest hrest hothers⟩

theorem settled_of_againFields? : ∀ (fields : List (String × Value)) {others : Fields},
    Reread fields others → (∀ field ∈ fields, field.2.Settled) → ∀ other ∈ others, other.2.Settled
  | [], _, .nil, _ => List.forall_mem_nil _
  | (_, v) :: rest, _, .cons hfield hrest, hsettled => by
    obtain ⟨hfirst, hothers⟩ := List.forall_mem_cons.1 hsettled
    exact List.forall_mem_cons.2
      ⟨settled_of_again? v hfield.2 hfirst, settled_of_againFields? rest hrest hothers⟩

end

end Value

/-- The depth to which values that are read can nest. -/
def maxHeight : Nat :=
  depthLimit - 1

/-- A tidy value that was printed is read as what it comes back as. -/
theorem toOption_read_pretty {v : Value} (h : v.Tidy maxHeight) {before after : String}
    (hbefore : before = "" ∨ before = "\n") (hafter : after = "" ∨ after = "\n") :
    (read (before ++ v.pretty ++ after)).toOption = v.again? := by
  have hheight : v.height < depthLimit := Nat.lt_succ_of_le h.2
  have hraw := Value.toOption_readRaw_pretty hheight hbefore hafter
  rw [read]
  generalize readRaw (before ++ v.pretty ++ after) = reading at hraw
  cases reading with
  | error fault => exact hraw
  | ok w =>
    have hw : w.Settled := Value.settled_of_again? v hraw.symm h.1
    rw [← hraw]
    exact congrArg some hw

/-- What was read is tidy. -/
theorem tidy_of_read {text : String} {v : Value} (h : read text = .ok v) : v.Tidy maxHeight := by
  rw [read] at h
  cases hraw : readRaw text with
  | error fault =>
    rw [hraw] at h
    cases h
  | ok w =>
    rw [hraw] at h
    obtain rfl := Except.ok.inj h
    have hheight := Nat.lt_of_le_of_lt w.height_settle_le (lexed_of_readRaw hraw).2
    exact ⟨w.settled_settle, Nat.le_pred_of_lt hheight⟩

end ThemeSection.Json
