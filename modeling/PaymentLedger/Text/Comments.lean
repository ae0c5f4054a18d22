import PaymentLedger.Text.Strings
import PaymentLedger.Text.Xml
import Mathlib.Data.List.Forall2

namespace PaymentLedger

/-- The second content has comments and processing instructions that the first one has not, at any place between its
nodes or inside its texts, and inside its elements. -/
inductive Commented : Content → Content → Prop
  | empty : Commented .empty .empty
  | text (s : String) {c c' : Content} (h : Commented c c') : Commented (.text s c) (.text s c')
  | comment (s : String) {c c' : Content} (h : Commented c c') : Commented (.comment s c) (.comment s c')
  | instruction (target data : String) {c c' : Content} (h : Commented c c') :
      Commented (.instruction target data c) (.instruction target data c')
  | element (tag : QName) (attributes : List (String × String)) {content content' next next' : Content}
      (hcontent : Commented content content') (hnext : Commented next next') :
      Commented (.element tag attributes content next) (.element tag attributes content' next')
  | divided (s s' : String) {c c' : Content} (h : Commented (.text s' c) c') :
      Commented (.text (s ++ s') c) (.text s c')
  | commentInserted (s : String) {c c' : Content} (h : Commented c c') : Commented c (.comment s c')
  | instructionInserted (target data : String) {c c' : Content} (h : Commented c c') :
      Commented c (.instruction target data c')

namespace Commented

theorem refl (c : Content) : Commented c c := by
  induction c with
  | empty => exact .empty
  | text s next ih => exact .text s ih
  | comment s next ih => exact .comment s ih
  | instruction target data next ih => exact .instruction target data ih
  | element tag attributes content next ihc ihn => exact .element tag attributes ihc ihn

/-- What is read of a text is a beginning of it. -/
theorem leadingText {c c' : Content} (h : Commented c c') :
    ∃ rest, c.leadingText.getD "" = c'.leadingText.getD "" ++ rest := by
  induction h with
  | empty => exact ⟨"", rfl⟩
  | text s h ih =>
    obtain ⟨rest, hrest⟩ := ih
    refine ⟨rest, ?_⟩
    rw [Content.leadingText, Content.leadingText, Option.getD_some, Option.getD_some, hrest, String.append_assoc]
  | comment s h ih => exact ⟨"", rfl⟩
  | instruction target data h ih => exact ⟨"", rfl⟩
  | element tag attributes hcontent hnext ihc ihn => exact ⟨"", rfl⟩
  | divided s s' h ih =>
    obtain ⟨rest, hrest⟩ := ih
    rw [Content.leadingText, Option.getD_some] at hrest
    refine ⟨rest, ?_⟩
    rw [Content.leadingText, Content.leadingText, Option.getD_some, Option.getD_some, String.append_assoc, hrest,
      String.append_assoc]
  | commentInserted s h ih => exact ⟨_, String.empty_append.symm⟩
  | instructionInserted target data h ih => exact ⟨_, String.empty_append.symm⟩

end Commented

/-- The element with comments and processing instructions inserted inside it. -/
structure CommentedElement (el el' : Element) : Prop where
  tag : el'.tag = el.tag
  attributes : el'.attributes = el.attributes
  content : Commented el.content el'.content

/-- Found at the same place. -/
def CommentedAt (x x' : List QName × Element) : Prop := x'.1 = x.1 ∧ CommentedElement x.2 x'.2

/-- The elements inside are the same but for what is inserted in each. -/
theorem Commented.descend {c c' : Content} (h : Commented c c') (above : List QName) :
    List.Forall₂ CommentedAt (c.descend above) (c'.descend above) := by
  induction h generalizing above with
  | empty => exact .nil
  | text s h ih => exact ih above
  | comment s h ih => exact ih above
  | instruction target data h ih => exact ih above
  | element tag attributes hcontent hnext ihc ihn =>
    exact .cons ⟨rfl, rfl, rfl, hcontent⟩ (List.rel_append (ihc (tag :: above)) (ihn above))
  | divided s s' h ih => exact ih above
  | commentInserted s h ih => exact ih above
  | instructionInserted target data h ih => exact ih above

/-- A search by the place alone ends at the same place. -/
theorem find?_related {xs xs' : List (List QName × Element)} (h : List.Forall₂ CommentedAt xs xs')
    (p : List QName × Element → Bool) (hp : ∀ chain el el', p (chain, el) = p (chain, el')) :
    Option.Rel CommentedAt (xs.find? p) (xs'.find? p) := by
  induction h with
  | nil => exact .none
  | @cons x x' xs xs' hx hxs ih =>
    have hsame : p x' = p x := by
      obtain ⟨chain, el⟩ := x
      obtain ⟨chain', el'⟩ := x'
      obtain rfl : chain' = chain := hx.1
      exact hp chain' el' el
    rw [List.find?_cons, List.find?_cons, hsame]
    cases p x with
    | true => exact .some hx
    | false => exact ih

namespace CommentedElement

variable {el el' : Element}

theorem find (h : CommentedElement el el') (path : List QName) :
    Option.Rel CommentedElement (el.find path) (el'.find path) := by
  have hrel := find?_related (h.content.descend []) (Element.reached path) fun _ _ _ => rfl
  rw [Element.find, Element.find]
  generalize (el.content.descend []).find? (Element.reached path) = x at hrel
  generalize (el'.content.descend []).find? (Element.reached path) = x' at hrel
  cases hrel with
  | some hx => exact .some hx.2
  | none => exact .none

theorem get (h : CommentedElement el el') (name : String) : el'.get name = el.get name := by
  rw [Element.get, Element.get, h.attributes]

theorem text (h : CommentedElement el el') : ∃ rest, el.text.getD "" = el'.text.getD "" ++ rest :=
  h.content.leadingText

end CommentedElement

section WhiteSpace

variable {l r : List Char}

theorem stripList_eq_nil : stripList l = [] ↔ ∀ c ∈ l, isSpace c = true := by
  rw [stripList, List.rdropWhile_eq_nil_iff]
  constructor
  · intro h
    have hnil : l.dropWhile isSpace = [] := by
      by_contra hne
      have hhead := List.head_dropWhile_not isSpace hne
      rw [h _ (List.head_mem hne)] at hhead
      cases hhead
    exact List.dropWhile_eq_nil_iff.mp hnil
  · intro h c hc
    exact h c ((List.dropWhile_sublist isSpace).mem hc)

theorem rdropWhile_append_blank (h : ∀ c ∈ r, isSpace c = true) :
    (l ++ r).rdropWhile isSpace = l.rdropWhile isSpace := by
  rw [List.rdropWhile, List.reverse_append, List.dropWhile_append_of_pos, List.rdropWhile]
  intro c hc
  exact h c (List.mem_reverse.mp hc)

/-- White space behind a text does not matter, and nothing else can stand there unnoticed. -/
theorem stripList_append (hl : stripList l ≠ []) : stripList (l ++ r) = stripList l ↔
    ∀ c ∈ r, isSpace c = true := by
  have hne : l.dropWhile isSpace ≠ [] := by
    intro hnil
    rw [stripList, hnil, List.rdropWhile_nil] at hl
    exact hl rfl
  have hfront : (l ++ r).dropWhile isSpace = l.dropWhile isSpace ++ r := by
    rw [List.dropWhile_append, if_neg (by simpa using hne)]
  rw [stripList, stripList, hfront]
  constructor
  · intro h
    by_contra hsome
    have hback : r.rdropWhile isSpace ≠ [] := fun hnil => hsome (List.rdropWhile_eq_nil_iff.mp hnil)
    have hlong : (l.dropWhile isSpace ++ r).rdropWhile isSpace = l.dropWhile isSpace ++ r.rdropWhile isSpace := by
      rw [List.rdropWhile, List.reverse_append, List.dropWhile_append, if_neg,
        List.reverse_append, List.reverse_reverse, List.rdropWhile]
      simpa [List.rdropWhile] using hback
    have hlength := congrArg List.length (hlong.symm.trans h)
    have hshort := (List.rdropWhile_prefix isSpace (l.dropWhile isSpace)).length_le
    have hpos := List.length_pos_iff.mpr hback
    rw [List.length_append] at hlength
    omega
  · exact rdropWhile_append_blank

theorem strip_eq_empty {s : String} : strip s = "" ↔ ∀ c ∈ s.toList, isSpace c = true := by
  rw [strip, ← stripList_eq_nil, ← String.toList_eq_nil_iff, String.toList_ofList]

theorem strip_append_blank {s rest : String} (h : strip rest = "") : strip (s ++ rest) = strip s := by
  rw [strip_eq_empty] at h
  rw [strip, strip, String.ofList_inj, String.toList_append]
  by_cases hs : stripList s.toList = []
  · rw [hs, stripList_eq_nil]
    exact List.forall_mem_append.mpr ⟨stripList_eq_nil.mp hs, h⟩
  · exact (stripList_append hs).mpr h

theorem strip_append {s rest : String} (hs : strip s ≠ "") : strip (s ++ rest) = strip s ↔ strip rest = "" := by
  have hlist : stripList s.toList ≠ [] := by
    intro hnil
    exact hs (strip_eq_empty.mpr (stripList_eq_nil.mp hnil))
  rw [strip_eq_empty, ← stripList_append hlist, strip, strip, String.ofList_inj, String.toList_append]

end WhiteSpace
end PaymentLedger
