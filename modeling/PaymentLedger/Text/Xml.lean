import Mathlib.Tactic

namespace PaymentLedger

/-- A tag: its namespace and its local name. -/
structure QName where
  space : String
  name : String
  deriving DecidableEq

/-- What stands between the tags of an element: its nodes in document order. -/
inductive Content where
  | empty
  | text (s : String) (next : Content)
  | comment (s : String) (next : Content)
  | instruction (target data : String) (next : Content)
  | element (tag : QName) (attributes : List (String × String)) (content next : Content)
  deriving DecidableEq

structure Element where
  tag : QName
  attributes : List (String × String)
  content : Content
  deriving DecidableEq

namespace Content

/-- The text before the first node that is no text. -/
def leadingText : Content → Option String
  | text s next => some (s ++ (leadingText next).getD "")
  | _ => none

/-- The elements inside in document order, each with the tags that lead to it, its own first. -/
def descend (above : List QName) : Content → List (List QName × Element)
  | empty => []
  | text _ next => next.descend above
  | comment _ next => next.descend above
  | instruction _ _ next => next.descend above
  | element tag attributes content next =>
    (tag :: above, ⟨tag, attributes, content⟩) :: (content.descend (tag :: above) ++ next.descend above)

end Content

namespace Element

/-- `el.text`. -/
def text (el : Element) : Option String := el.content.leadingText

/-- `el.get(name)`. -/
def get (el : Element) (name : String) : Option String := el.attributes.lookup name

/-- The tags that lead to an element end in this path. -/
def reached (path : List QName) (x : List QName × Element) : Bool := path.reverse.isPrefixOf x.1

/-- `root.find(".//a/b/c")`: the first element in document order that the path reaches. -/
def find (root : Element) (path : List QName) : Option Element :=
  ((root.content.descend []).find? (reached path)).map Prod.snd

/-- The same search inside one element, whose own tag may be the first of the path. -/
def inside (el : Element) (path : List QName) : Option Element :=
  ((el.content.descend [el.tag]).find? (reached path)).map Prod.snd

/-- `el.find("a/b/c")`: only along the children of `el`. -/
def child (el : Element) (path : List QName) : Option Element :=
  ((el.content.descend []).find? fun x => decide (x.1 = path.reverse)).map Prod.snd

end Element

section Search

variable {tag : QName} {path : List QName}

/-- A path below `tag` reaches nothing outside the elements with that tag. -/
theorem not_reached {above : List QName} {el : Element} (hp : path ≠ []) (h : tag ∉ above.tail) :
    Element.reached (tag :: path) (above, el) = false := by
  rw [Element.reached, Bool.eq_false_iff, ne_eq, List.isPrefixOf_iff_prefix]
  rintro ⟨t, ht⟩
  apply h
  obtain ⟨q, u, hu⟩ := List.exists_cons_of_ne_nil (List.reverse_ne_nil_iff.mpr hp)
  have habove : above = q :: (u ++ [tag] ++ t) := by
    rw [List.reverse_cons, hu] at ht
    exact ht.symm
  rw [habove, List.tail_cons]
  simp

theorem descend_find_none {c : Content} {above : List QName} (hp : path ≠ []) (ha : tag ∉ above)
    (h : (c.descend above).find? (Element.reached [tag]) = none) :
    (c.descend above).find? (Element.reached (tag :: path)) = none := by
  induction c generalizing above with
  | empty => rfl
  | text s next ih => exact ih ha h
  | comment s next ih => exact ih ha h
  | instruction target data next ih => exact ih ha h
  | element t attributes content next ihc ihn =>
    rw [Content.descend, List.find?_cons] at h ⊢
    have hne : t ≠ tag := by
      rintro rfl
      simp [Element.reached] at h
    have hfirst : Element.reached [tag] (t :: above, ⟨t, attributes, content⟩) = false := by
      simp [Element.reached, List.isPrefixOf, Ne.symm hne]
    rw [hfirst] at h
    rw [not_reached hp (by simpa using ha)]
    simp only [List.find?_append, Option.or_eq_none_iff] at h ⊢
    have ha' : tag ∉ t :: above := by simp [Ne.symm hne, ha]
    exact ⟨ihc ha' h.1, ihn ha h.2⟩

/-- What the search finds inside the first element with the tag, it finds first. -/
theorem descend_find_some {c : Content} {above chain : List QName} {el : Element} {x : List QName × Element}
    (hp : path ≠ []) (ha : tag ∉ above) (h : (c.descend above).find? (Element.reached [tag]) = some (chain, el))
    (hx : (el.content.descend chain).find? (Element.reached (tag :: path)) = some x) :
    (c.descend above).find? (Element.reached (tag :: path)) = some x := by
  induction c generalizing above with
  | empty => cases h
  | text s next ih => exact ih ha h
  | comment s next ih => exact ih ha h
  | instruction target data next ih => exact ih ha h
  | element t attributes content next ihc ihn =>
    rw [Content.descend, List.find?_cons] at h ⊢
    rw [not_reached hp (by simpa using ha)]
    rw [List.find?_append]
    by_cases ht : t = tag
    · have hfirst : Element.reached [tag] (t :: above, ⟨t, attributes, content⟩) = true := by
        simp [Element.reached, List.isPrefixOf, ht]
      rw [hfirst] at h
      cases h
      rw [hx, Option.some_or]
    · have hfirst : Element.reached [tag] (t :: above, ⟨t, attributes, content⟩) = false := by
        simp [Element.reached, List.isPrefixOf, Ne.symm ht]
      rw [hfirst] at h
      have ha' : tag ∉ t :: above := by simp [Ne.symm ht, ha]
      simp only [List.find?_append] at h
      cases hc : (content.descend (t :: above)).find? (Element.reached [tag]) with
      | some y =>
        rw [hc, Option.some_or] at h
        cases h
        rw [ihc ha' hc, Option.some_or]
      | none =>
        rw [hc, Option.none_or] at h
        rw [descend_find_none hp ha' hc, Option.none_or]
        exact ihn ha h

theorem descend_append (c : Content) (above rest : List QName) :
    c.descend (above ++ rest) = (c.descend above).map fun x => (x.1 ++ rest, x.2) := by
  induction c generalizing above with
  | empty => rfl
  | text s next ih => exact ih above
  | comment s next ih => exact ih above
  | instruction target data next ih => exact ih above
  | element t attributes content next ihc ihn =>
    have hc := ihc (t :: above)
    rw [List.cons_append] at hc
    simp only [Content.descend, List.map_cons, List.map_append, List.cons_append, hc, ihn]

/-- Tags further up than the first of the path do not matter. -/
theorem reached_append {chain rest : List QName} {el : Element} (hr : tag ∉ rest) :
    Element.reached (tag :: path) (chain ++ rest, el) = Element.reached (tag :: path) (chain, el) := by
  rw [Element.reached, Element.reached, Bool.eq_iff_iff, List.isPrefixOf_iff_prefix, List.isPrefixOf_iff_prefix]
  constructor
  · intro h
    rw [List.reverse_cons] at h ⊢
    by_cases hlen : (path.reverse ++ [tag]).length ≤ chain.length
    · exact List.prefix_of_prefix_length_le h (List.prefix_append _ _) hlen
    · exfalso
      apply hr
      obtain ⟨t, ht⟩ := h
      have hdrop := congrArg (List.drop chain.length) ht
      rw [List.drop_left, List.append_assoc, List.drop_append_of_le_length (by simp at hlen ⊢; omega)] at hdrop
      rw [← hdrop]
      simp
  · intro h
    exact h.trans (List.prefix_append _ _)

theorem descend_chain {c : Content} {above chain : List QName} {el : Element} (ha : tag ∉ above)
    (h : (c.descend above).find? (Element.reached [tag]) = some (chain, el)) :
    el.tag = tag ∧ ∃ rest, chain = tag :: rest ∧ tag ∉ rest := by
  induction c generalizing above with
  | empty => cases h
  | text s next ih => exact ih ha h
  | comment s next ih => exact ih ha h
  | instruction target data next ih => exact ih ha h
  | element t attributes content next ihc ihn =>
    rw [Content.descend, List.find?_cons] at h
    by_cases ht : t = tag
    · have hfirst : Element.reached [tag] (t :: above, ⟨t, attributes, content⟩) = true := by
        simp [Element.reached, List.isPrefixOf, ht]
      rw [hfirst] at h
      cases h
      exact ⟨ht, above, by rw [ht], ha⟩
    · have hfirst : Element.reached [tag] (t :: above, ⟨t, attributes, content⟩) = false := by
        simp [Element.reached, List.isPrefixOf, Ne.symm ht]
      rw [hfirst] at h
      have ha' : tag ∉ t :: above := by simp [Ne.symm ht, ha]
      simp only [List.find?_append] at h
      cases hc : (content.descend (t :: above)).find? (Element.reached [tag]) with
      | some y =>
        rw [hc, Option.some_or] at h
        cases h
        exact ihc ha' hc
      | none =>
        rw [hc, Option.none_or] at h
        exact ihn ha h

/-- Where the first element with the tag has what the rest of the path asks for, the whole search ends there. -/
theorem Element.find_of_inside {root el e : Element} (hp : path ≠ []) (h : root.find [tag] = some el)
    (he : el.inside (tag :: path) = some e) : root.find (tag :: path) = some e := by
  obtain ⟨⟨chain, el'⟩, hfirst, hel⟩ := Option.map_eq_some_iff.mp h
  subst hel
  obtain ⟨htag, rest, rfl, hrest⟩ := descend_chain List.not_mem_nil hfirst
  obtain ⟨x, hx, rfl⟩ := Option.map_eq_some_iff.mp he
  have hinner : (el'.content.descend (tag :: rest)).find? (reached (tag :: path)) = some (x.1 ++ rest, x.2) := by
    have hsplit : tag :: rest = [el'.tag] ++ rest := by rw [htag]; rfl
    rw [hsplit, descend_append, List.find?_map]
    have hsame : (reached (tag :: path) ∘ fun x => (x.1 ++ rest, x.2)) = reached (tag :: path) := by
      funext y
      exact reached_append hrest
    rw [hsame, hx]
    rfl
  rw [find, descend_find_some hp List.not_mem_nil hfirst hinner]
  rfl

theorem descend_mem {c : Content} {above chain : List QName} {el : Element} {x : List QName × Element}
    (h : (chain, el) ∈ c.descend above) (hx : x ∈ el.content.descend chain) : x ∈ c.descend above := by
  induction c generalizing above with
  | empty => cases h
  | text s next ih => exact ih h
  | comment s next ih => exact ih h
  | instruction target data next ih => exact ih h
  | element t attributes content next ihc ihn =>
    rw [Content.descend, List.mem_cons, List.mem_append] at h ⊢
    rcases h with h | h | h
    · cases h
      exact .inr (.inl hx)
    · exact .inr (.inl (ihc h))
    · exact .inr (.inr (ihn h))

theorem Element.child_mem {el e : Element} (h : el.child path = some e) :
    (path.reverse, e) ∈ el.content.descend [] := by
  obtain ⟨⟨chain, e'⟩, hfind, rfl⟩ := Option.map_eq_some_iff.mp h
  have hchain : chain = path.reverse := by simpa using List.find?_some hfind
  rw [← hchain]
  exact List.mem_of_find?_eq_some hfind

/-- What an element has on a path of its own, the search inside it reaches. -/
theorem Element.inside_of_mem {el e : Element} (h : (path.reverse, e) ∈ el.content.descend []) :
    ∃ e', el.inside (el.tag :: path) = some e' := by
  have hmem : (path.reverse ++ [el.tag], e) ∈ el.content.descend [el.tag] := by
    rw [show [el.tag] = [] ++ [el.tag] from rfl, descend_append]
    exact List.mem_map_of_mem (f := fun x : List QName × Element => (x.1 ++ [el.tag], x.2)) h
  have hsome : ((el.content.descend [el.tag]).find? (reached (el.tag :: path))).isSome = true := by
    rw [List.find?_isSome]
    refine ⟨_, hmem, ?_⟩
    rw [reached, List.reverse_cons, List.isPrefixOf_iff_prefix]
  obtain ⟨x, hx⟩ := Option.isSome_iff_exists.mp hsome
  exact ⟨x.2, by rw [inside, hx]; rfl⟩

theorem Element.child_child_mem {el mid e : Element} {first : QName} (hm : el.child [first] = some mid)
    (he : mid.child path = some e) : ((first :: path).reverse, e) ∈ el.content.descend [] := by
  have hmid : ([first], mid) ∈ el.content.descend [] := child_mem hm
  have hmem : (path.reverse ++ [first], e) ∈ mid.content.descend [first] := by
    rw [show [first] = [] ++ [first] from rfl, descend_append]
    exact List.mem_map_of_mem (f := fun x : List QName × Element => (x.1 ++ [first], x.2)) (child_mem he)
  rw [List.reverse_cons]
  exact descend_mem hmid hmem

theorem Element.find_tag {root el : Element} (h : root.find [tag] = some el) : el.tag = tag := by
  obtain ⟨⟨chain, el'⟩, hfirst, hel⟩ := Option.map_eq_some_iff.mp h
  subst hel
  exact (descend_chain List.not_mem_nil hfirst).1

/-- Once the first element with the tag has something on the path, the whole search is the search in it. -/
theorem Element.find_iff_inside {root el e own : Element} (hp : path ≠ []) (h : root.find [tag] = some el)
    (hown : (path.reverse, own) ∈ el.content.descend []) :
    root.find (tag :: path) = some e ↔ el.inside (tag :: path) = some e := by
  obtain ⟨first, hfirst⟩ := inside_of_mem hown
  rw [find_tag h] at hfirst
  rw [find_of_inside hp h hfirst, hfirst]

end Search
end PaymentLedger
