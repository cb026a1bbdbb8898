import ThemeSection.Proofs.Document.Sound

/-!
What the markup of sound nodes says. The tokens in it are those of the attributes and texts, in
document order, and as every row of texts closes what it opens, so does the markup as a whole.
-/

namespace ThemeSection

open Markup Liquid

namespace Markup.Tree

mutual

/-- The tokens of the markup of a tree. An element inside one without an end tag has no tags of its
own there. -/
def printedTokens (inVoid : Bool) : Tree → List Liquid.Token
  | node _ kind children =>
    match kind with
    | .document => printedTokensOf false children
    | .doctype _ => []
    | .text content => tokens content.toList
    | .comment _ => []
    | .element name attributes =>
      if inVoid then printedTokensOf true children
      else (attributes.flatMap fun a => tokens a.value.toList)
        ++ printedTokensOf name.isVoid children

def printedTokensOf (inVoid : Bool) : List Tree → List Liquid.Token
  | [] => []
  | tree :: rest => printedTokens inVoid tree ++ printedTokensOf inVoid rest

end

@[simp] theorem printedTokensOf_eq_flatMap (inVoid : Bool) (children : List Tree) :
    printedTokensOf inVoid children = children.flatMap (printedTokens inVoid) := by
  induction children with
  | nil => rfl
  | cons c rest ih => rw [printedTokensOf, ih, List.flatMap_cons]

variable {allowed : Owner → String → Prop} {scope : NodeId → Prop} {styled : List NodeId}

/-- All nodes of a tree are sound, whatever their ids. -/
def AllSound (allowed : Owner → String → Prop) (t : Tree) : Prop :=
  ∀ n ∈ t.nodes, n.kind.Sound allowed ∧ Neutral (n.children.flatMap ownTokens)

theorem AllSound.of_mem_children {t c : Tree} (h : t.AllSound allowed) (hc : c ∈ t.children) :
    c.AllSound allowed := fun n hn =>
  h n (nodes_trans (mem_nodes_of_mem_children hc) hn)

/-- Below a sound node of a scope all nodes are sound. -/
theorem allSound_of_soundIn {d : Document} (h : d.SoundIn allowed scope styled) {t : Tree}
    (ht : t ∈ d.nodes) (hscope : scope t.id) : t.AllSound allowed := by
  have hbelow : ∀ n ∈ t.nodes, scope n.id := by
    induction t using Tree.bottomUp with
    | node id kind children ih =>
      intro n hn
      rcases mem_nodes_iff.1 hn with rfl | ⟨c, hc, hn⟩
      · exact hscope
      · have hchild : c ∈ d.nodes := Document.mem_nodes_of_mem_children ht hc
        exact ih c hc hchild ((h _ ht hscope).inside c hc) n hn
  intro n hn
  have hsound := h n (Document.nodes_trans ht hn) (hbelow n hn)
  exact ⟨hsound.kind, hsound.row⟩

theorem renderAll_eq_join (raw inVoid : Bool) (children : List Tree) :
    (renderAll raw inVoid children).toList =
      (children.map fun c => (renderUnder raw inVoid c).toList).flatten := by
  induction children with
  | nil => rfl
  | cons c rest ih => rw [renderAll, String.toList_append, ih, List.map_cons, List.flatten_cons]

/-- The tags of an element are settled, and their tokens are those of the attributes. -/
theorem startTag_settled {name : ElementName} {attributes : Attributes}
    (h : (NodeKind.element name attributes).Sound allowed) :
    Settled (startTag name attributes).toList ∧
      tokens (startTag name attributes).toList =
        attributes.flatMap fun a => tokens a.value.toList := by
  have hattribute : ∀ a ∈ attributes, Settled (Attribute.render a).toList ∧
      tokens (Attribute.render a).toList = tokens a.value.toList := by
    intro a ha
    obtain ⟨hname, hvalue⟩ := h.2 a ha
    have hrendered : Braceless (a.name.render).toList := by
      have hprefix : Braceless "xlink:".toList ∧ Braceless "xml:".toList ∧
        Braceless "xmlns:".toList := by decide
      unfold AttributeName.render
      split
      · exact hname
      · rw [String.toList_append]
        exact hprefix.1.append hname
      · rw [String.toList_append]
        exact hprefix.2.1.append hname
      · split
        · exact hname
        · rw [String.toList_append]
          exact hprefix.2.2.append hname
    obtain ⟨hsettled, htokens⟩ := escapes_attribute.settled hvalue.settled
    have hopen : Braceless (" ".toList ++ (a.name.render).toList ++ "=\"".toList) :=
      Braceless.append (Braceless.append (by decide) hrendered) (by decide)
    have htext : (Attribute.render a).toList =
        " ".toList ++ (a.name.render).toList ++ "=\"".toList ++
          (a.value.toList.flatMap escapeAttributeChar ++ "\"".toList) := by
      simp [Attribute.render, escapeAttribute]
    rw [htext, tokens_plain hopen, hsettled.tokens_append, htokens]
    have hquote : Braceless "\"".toList := by decide
    exact ⟨.plain hopen (hsettled.append hquote.settled), by
      rw [hquote.tokens, List.append_nil]⟩
  have hall := Settled.flatten (attributes.map fun a => (Attribute.render a).toList)
    (List.forall_mem_map.2 fun a ha => (hattribute a ha).1)
  have hjoin : (String.join (attributes.map Attribute.render)).toList =
      (attributes.map fun a => (Attribute.render a).toList).flatten := by
    rw [String.toList_join, List.flatMap_map]
    rfl
  have hopen : Braceless ("<".toList ++ name.name.toList) := Braceless.append (by decide) h.1
  have hclose : Braceless ">".toList := by decide
  have htext : (startTag name attributes).toList =
      "<".toList ++ name.name.toList ++
        ((attributes.map fun a => (Attribute.render a).toList).flatten ++ ">".toList) := by
    simp only [startTag, String.toList_append, hjoin, List.append_assoc]
  rw [htext, tokens_plain hopen, hall.1.tokens_append, hall.2, hclose.tokens, List.append_nil,
    List.flatMap_map]
  exact ⟨.plain hopen (hall.1.append hclose.settled),
    List.flatMap_congr fun a ha => (hattribute a ha).2⟩

/-- The markup of a sound tree is settled, wherever it is written. -/
theorem renderUnder_settled {t : Tree} (h : t.AllSound allowed) : ∀ raw inVoid,
    Settled (renderUnder raw inVoid t).toList ∧
      tokens (renderUnder raw inVoid t).toList = t.printedTokens inVoid := by
  induction t using Tree.bottomUp with
  | node id kind children ih =>
    have hkind := (h _ (self_mem_nodes _)).1
    have hchildren : ∀ raw inVoid, Settled (renderAll raw inVoid children).toList ∧
        tokens (renderAll raw inVoid children).toList = printedTokensOf inVoid children := by
      intro raw inVoid
      have hall := Settled.flatten
        (children.map fun c => (renderUnder raw inVoid c).toList)
        (List.forall_mem_map.2 fun c hc => (ih c hc (h.of_mem_children hc) raw inVoid).1)
      rw [renderAll_eq_join, hall.2, List.flatMap_map, printedTokensOf_eq_flatMap]
      exact ⟨hall.1, List.flatMap_congr fun c hc => (ih c hc (h.of_mem_children hc) raw inVoid).2⟩
    intro raw inVoid
    cases kind with
    | document => exact hchildren false false
    | doctype name =>
      have hplain : Braceless ("<!DOCTYPE " ++ name ++ ">").toList := by
        rw [String.toList_append, String.toList_append]
        exact Braceless.append (Braceless.append (by decide) hkind) (by decide)
      exact ⟨hplain.settled, hplain.tokens⟩
    | text content =>
      cases raw with
      | true => exact ⟨hkind.1, rfl⟩
      | false =>
        obtain ⟨hsettled, htokens⟩ := escapes_text.settled hkind.1
        have htext : (renderUnder false inVoid (node id (.text content) children)).toList =
            content.toList.flatMap escapeTextChar := String.toList_ofList
        rw [htext]
        exact ⟨hsettled, htokens⟩
    | comment content =>
      have hplain : Braceless ("<!--" ++ content ++ "-->").toList := by
        rw [String.toList_append, String.toList_append]
        exact Braceless.append (Braceless.append (by decide) hkind) (by decide)
      exact ⟨hplain.settled, hplain.tokens⟩
    | element name attributes =>
      cases inVoid with
      | true => exact hchildren name.isRaw true
      | false =>
        obtain ⟨hstart, hstartTokens⟩ := startTag_settled hkind
        obtain ⟨hbody, hbodyTokens⟩ := hchildren name.isRaw name.isVoid
        have hend : Braceless (if name.isVoid then "" else endTag name).toList := by
          split
          · decide
          · rw [endTag, String.toList_append, String.toList_append]
            exact Braceless.append (Braceless.append (by decide) hkind.1) (by decide)
        have htext : (renderUnder raw false (node id (.element name attributes) children)).toList =
            (startTag name attributes).toList ++
              ((renderAll name.isRaw name.isVoid children).toList ++
                (if name.isVoid then "" else endTag name).toList) := by
          simp only [renderUnder, Bool.false_eq_true, if_false, String.toList_append,
            List.append_assoc]
        rw [htext, hstart.tokens_append, hstartTokens, hbody.tokens_append, hbodyTokens,
          hend.tokens, List.append_nil]
        exact ⟨hstart.append (hbody.append hend.settled), rfl⟩

/-- The tokens of what a sound tree holds. -/
theorem tokens_inner {t : Tree} (h : t.AllSound allowed) :
    tokens t.inner.toList = t.children.flatMap (printedTokens false) := by
  have hall := Settled.flatten (t.children.map fun c => c.outer.toList)
    (List.forall_mem_map.2 fun c hc => (renderUnder_settled (h.of_mem_children hc) false false).1)
  have hjoin : t.inner.toList = (t.children.map fun c => c.outer.toList).flatten := by
    rw [inner, String.toList_join, List.flatMap_map]
    rfl
  rw [hjoin, hall.2, List.flatMap_map]
  exact List.flatMap_congr fun c hc =>
    (renderUnder_settled (h.of_mem_children hc) false false).2

/-- A sound tree acts on the open tags as its own tokens do. -/
theorem run_printedTokens {t : Tree} (h : t.AllSound allowed) : ∀ inVoid,
    run (t.printedTokens inVoid) = run t.ownTokens := by
  induction t using Tree.bottomUp with
  | node id kind children ih =>
    obtain ⟨hkind, hrow⟩ := h _ (self_mem_nodes _)
    have hchildren : ∀ inVoid, Neutral (printedTokensOf inVoid children) := by
      intro inVoid stack
      rw [printedTokensOf_eq_flatMap, run_flatMap_congr fun c hc => ih c hc (h.of_mem_children hc) inVoid]
      exact hrow stack
    intro inVoid
    cases kind with
    | document => exact funext fun stack => hchildren false stack
    | element name attributes =>
      have hattributes : Neutral (attributes.flatMap fun a => tokens a.value.toList) :=
        Neutral.flatMap fun a ha => (hkind.2 a ha).2.neutral
      funext stack
      cases inVoid with
      | true => exact hchildren true stack
      | false => exact hattributes.append (hchildren name.isVoid) stack
    | _ => rfl

/-- What a sound tree holds closes the tags that it opens. -/
theorem wellNested_inner {t : Tree} (h : t.AllSound allowed) :
    WellNested (tokens t.inner.toList) := by
  rw [tokens_inner h, WellNested,
    run_flatMap_congr fun c hc => run_printedTokens (h.of_mem_children hc) false]
  exact (h _ (self_mem_nodes _)).2 []

theorem fits_of_mem_printedTokens {t : Tree} (h : t.AllSound allowed) : ∀ inVoid,
    ∀ k ∈ t.printedTokens inVoid, k.Fits allowed := by
  induction t using Tree.bottomUp with
  | node id kind children ih =>
    have hkind := (h _ (self_mem_nodes _)).1
    have hchildren : ∀ inVoid, ∀ k ∈ printedTokensOf inVoid children, k.Fits allowed := by
      intro inVoid k hk
      rw [printedTokensOf_eq_flatMap] at hk
      obtain ⟨c, hc, hk⟩ := List.mem_flatMap.1 hk
      exact ih c hc (h.of_mem_children hc) inVoid k hk
    intro inVoid k hk
    cases kind with
    | document => exact hchildren false k hk
    | doctype name => cases hk
    | text content => exact hkind.2 k hk
    | comment content => cases hk
    | element name attributes =>
      cases inVoid with
      | true => exact hchildren true k hk
      | false =>
        rcases List.mem_append.1 hk with hk | hk
        · obtain ⟨a, ha, hk⟩ := List.mem_flatMap.1 hk
          exact (hkind.2 a ha).2.fits k hk
        · exact hchildren name.isVoid k hk

/-- What a sound tree holds refers to allowed settings only. -/
theorem fits_of_mem_tokens_inner {t : Tree} (h : t.AllSound allowed) :
    ∀ k ∈ tokens t.inner.toList, k.Fits allowed := by
  intro k hk
  rw [tokens_inner h] at hk
  obtain ⟨c, hc, hk⟩ := List.mem_flatMap.1 hk
  exact fits_of_mem_printedTokens (h.of_mem_children hc) false k hk

end Markup.Tree

end ThemeSection
