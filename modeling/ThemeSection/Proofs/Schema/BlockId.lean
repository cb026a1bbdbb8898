import Mathlib.Data.List.Basic
import ThemeSection.Schema.Block

/-!
Ids of blocks tell types apart whatever the hash is: the hash part always has eight characters, so
the type can be read off an id. Within one type, ids are told apart by four bytes of the hash.
-/

namespace ThemeSection

/-- The first four bytes of the hash of the `index`-th block of a type. -/
def blockHash (slug type : String) (index : Nat) : List UInt8 :=
  (Digest.sha256 (slug ++ "/" ++ type ++ "/" ++ toString index).toUTF8.toList).take 4

theorem length_blockHash (slug type : String) (index : Nat) :
    (blockHash slug type index).length = 4 := by
  simp [blockHash, Digest.sha256, Digest.bytesOf]

theorem hexDigit_inj {m n : Nat} (hm : m < 16) (hn : n < 16)
    (h : Json.hexDigit m = Json.hexDigit n) : m = n := by
  have hdigits : ∀ m n : Fin 16, Json.hexDigit m = Json.hexDigit n → m = n := by decide
  exact Fin.mk.inj_iff.1 (hdigits ⟨m, hm⟩ ⟨n, hn⟩ h)

theorem hexByte_injective : Function.Injective hexByte := by
  intro a b h
  have ha := a.toNat_lt
  have hb := b.toNat_lt
  simp only [hexByte, List.cons.injEq] at h
  have hhigh := hexDigit_inj (by omega) (by omega) h.1
  have hlow := hexDigit_inj (by omega) (by omega) h.2.1
  exact UInt8.toNat_inj.1 (by omega)

/-- Bytes can be read off their hexadecimal digits. -/
theorem flatMap_hexByte_injective : Function.Injective (List.flatMap hexByte) := by
  intro a
  induction a with
  | nil =>
    intro b h
    cases b with
    | nil => rfl
    | cons d rest => simp [hexByte] at h
  | cons c rest ih =>
    intro b h
    cases b with
    | nil => simp [hexByte] at h
    | cons d others =>
      simp only [List.flatMap_cons] at h
      obtain ⟨hfirst, hrest⟩ := List.append_inj h rfl
      rw [hexByte_injective hfirst, ih hrest]

theorem blockId_eq (slug type : String) (index : Nat) :
    blockId slug type index =
      type ++ "_" ++ String.ofList ((blockHash slug type index).flatMap hexByte) := rfl

/-- Ids of blocks of different types differ. -/
theorem type_eq_of_blockId_eq {slug slug' type type' : String} {index index' : Nat}
    (h : blockId slug type index = blockId slug' type' index') : type = type' := by
  have hlength (slug type : String) (index : Nat) :
      ((blockHash slug type index).flatMap hexByte).length = 8 := by
    simp [hexByte, length_blockHash]
  have hchars := congrArg String.toList h
  simp only [blockId_eq, String.toList_append, String.toList_ofList] at hchars
  have hstart := (List.append_inj' hchars (by simp only [hlength])).1
  exact String.toList_inj.1 (List.append_cancel_right hstart)

/-- Within one type, ids are as different as the hashes. -/
theorem blockHash_eq_of_blockId_eq {slug type : String} {index index' : Nat}
    (h : blockId slug type index = blockId slug type index') :
    blockHash slug type index = blockHash slug type index' := by
  simp only [blockId_eq, String.append_right_inj] at h
  exact flatMap_hexByte_injective (String.ofList_injective h)

/-- Where hashes tell the first blocks of a type apart, their ids do. -/
theorem nodup_blockIds {slug type : String} {count : Nat}
    (h : ((List.range count).map (blockHash slug type)).Nodup) :
    ((List.range count).map (blockId slug type)).Nodup := by
  refine List.pairwise_map.2 ((List.pairwise_map.1 h).imp fun {m n} hne heq => ?_)
  exact hne (blockHash_eq_of_blockId_eq heq)

end ThemeSection
