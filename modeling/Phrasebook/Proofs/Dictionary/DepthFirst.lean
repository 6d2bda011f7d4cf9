import Phrasebook.Proofs.Dictionary.Containment

/-!
The order in which a search asks dictionaries. A dictionary comes before what is below it, and all
that is below one child comes before the next child; what is reached on two ways comes twice. Where
no circle is led into there is such an order, it has just the dictionaries that are reached, and
looking a key up is going through it: the first dictionary that itself has the key decides.
-/
namespace Phrasebook.Library

/-- Some dictionaries are visited depth first, in an order. Of the dictionaries that are due, the
first one is visited, and then its children are due before the others. -/
inductive Visits (library : Library) : (due order : List DictionaryRef) → Prop
  | done : Visits library [] []
  | next {ref : DictionaryRef} {dictionary : Dictionary} {others order : List DictionaryRef}
      (hget : library.get? ref = some dictionary)
      (hrest : Visits library (dictionary.children ++ others) order) :
      Visits library (ref :: others) (ref :: order)

def ownText? (library : Library) (key : Text) (ref : DictionaryRef) : Option Text :=
  (library.get? ref).bind fun dictionary => dictionary.own? key

variable {library : Library} {key : Text}

namespace Visits

theorem append {due others order rest : List DictionaryRef} (hdue : library.Visits due order)
    (hothers : library.Visits others rest) : library.Visits (due ++ others) (order ++ rest) := by
  induction hdue with
  | done => exact hothers
  | next hget _ ih =>
    rw [List.append_assoc] at ih
    exact .next hget ih

/-- Just the dictionaries that are reached from one that is due are visited. -/
theorem mem_iff {due order : List DictionaryRef} (h : library.Visits due order)
    (below : DictionaryRef) : below ∈ order ↔ ∃ ref ∈ due, library.Reaches ref below := by
  induction h with
  | done => simp
  | @next ref dictionary others order hget _ ih =>
    have hreaches : library.Reaches ref below ↔
        below = ref ∨ ∃ child ∈ dictionary.children, library.Reaches child below := by
      constructor
      · intro hdown
        rcases Relation.ReflTransGen.cases_head hdown with rfl | ⟨child, hchild, hrest⟩
        · exact Or.inl rfl
        · obtain ⟨other, hother, hmem⟩ := hchild
          obtain rfl := Option.some.inj (hget.symm.trans hother)
          exact Or.inr ⟨child, hmem, hrest⟩
      · rintro (rfl | ⟨child, hmem, hrest⟩)
        · exact Relation.ReflTransGen.refl
        · exact Relation.ReflTransGen.head ⟨dictionary, hget, hmem⟩ hrest
    simp only [List.mem_cons, ih, List.mem_append, or_and_right, exists_or, exists_eq_left,
      hreaches, or_assoc]

theorem exists_of_forall {due : List DictionaryRef}
    (h : ∀ ref ∈ due, ∃ order, library.Visits [ref] order) : ∃ order, library.Visits due order := by
  induction due with
  | nil => exact ⟨[], .done⟩
  | cons ref others ih =>
    obtain ⟨hfirst, hrest⟩ := List.forall_mem_cons.1 h
    obtain ⟨order, horder⟩ := hfirst
    obtain ⟨rest, hothers⟩ := ih hrest
    exact ⟨order ++ rest, horder.append hothers⟩

/-- What can be listed can be visited: the one goes as deep as the other. -/
theorem exists_of_collect (hclosed : library.Closed) {steps : Nat} {ref : DictionaryRef}
    (href : ref < library.size) (h : ∃ listing, library.collect steps ref = .ok listing) :
    ∃ order, library.Visits [ref] order := by
  induction steps generalizing ref with
  | zero => simp [collect] at h
  | succ steps ih =>
    have hget : library.get? ref = some library.dictionaries[ref] :=
      List.getElem?_eq_getElem href
    simp only [collect, hget, mergeAll_isOk_iff] at h
    have hchildren : ∀ child ∈ library.dictionaries[ref].children,
        ∃ order, library.Visits [child] order := by
      intro child hchild
      exact ih (hclosed ref child ⟨_, hget, hchild⟩) (h child hchild)
    obtain ⟨order, horder⟩ := exists_of_forall hchildren
    exact ⟨ref :: order, .next hget (by rwa [List.append_nil])⟩

theorem exists_of_no_circle (hclosed : library.Closed) {ref : DictionaryRef}
    (href : ref < library.size) (hcircle : ¬ library.LeadsInCircle ref) :
    ∃ order, library.Visits [ref] order :=
  exists_of_collect hclosed href ((listing_isOk_iff hclosed href).2 hcircle)

end Visits

/-- Where some are asked with success, asking with more steps gives the same answer. -/
theorem firstAnswer_mono {ask again : DictionaryRef → Except Endless (Option Text)}
    (h : ∀ ref answer, ask ref = .ok answer → again ref = .ok answer)
    {refs : List DictionaryRef} {answer : Option Text} (hask : firstAnswer ask refs = .ok answer) :
    firstAnswer again refs = .ok answer := by
  induction refs with
  | nil => exact hask
  | cons ref refs ih =>
    cases hfirst : ask ref with
    | error e => simp [firstAnswer, hfirst] at hask
    | ok found =>
      cases found with
      | some text => simpa [firstAnswer, hfirst, h ref _ hfirst] using hask
      | none =>
        simp only [firstAnswer, hfirst] at hask
        simp only [firstAnswer, h ref _ hfirst]
        exact ih hask

/-- A search that has come to its end does not change when it may go further down. -/
theorem search_mono {steps further : Nat} (hle : steps ≤ further) {ref : DictionaryRef}
    {answer : Option Text} (h : library.search key steps ref = .ok answer) :
    library.search key further ref = .ok answer := by
  induction steps generalizing further ref answer with
  | zero => cases h
  | succ steps ih =>
    obtain ⟨further, rfl⟩ : ∃ n, further = n + 1 := ⟨further - 1, by omega⟩
    have hless : steps ≤ further := by omega
    cases hget : library.get? ref with
    | none => simpa [search, hget] using h
    | some dictionary =>
      cases hown : dictionary.own? key with
      | some text => simpa [search, hget, hown] using h
      | none =>
        simp only [search, hget, hown] at h ⊢
        exact firstAnswer_mono (fun _ _ => ih hless) h

/-- The others are asked where the first ones have no answer. -/
theorem firstAnswer_append (ask : DictionaryRef → Except Endless (Option Text))
    (refs others : List DictionaryRef) :
    firstAnswer ask (refs ++ others) =
      match firstAnswer ask refs with
      | .ok none => firstAnswer ask others
      | outcome => outcome := by
  induction refs with
  | nil => rfl
  | cons ref refs ih =>
    rw [List.cons_append, firstAnswer, firstAnswer]
    cases ask ref with
    | error e => rfl
    | ok found =>
      cases found with
      | some text => rfl
      | none => exact ih

/-- Asking the dictionaries that are due is going through those that are visited. -/
theorem Visits.exists_firstAnswer {due order : List DictionaryRef} (h : library.Visits due order)
    (key : Text) :
    ∃ steps, firstAnswer (library.search key steps) due =
      .ok (order.findSome? (library.ownText? key)) := by
  induction h with
  | done => exact ⟨0, rfl⟩
  | @next ref dictionary others order hget _ ih =>
    obtain ⟨steps, hsteps⟩ := ih
    have hfirst : library.ownText? key ref = dictionary.own? key := by simp [ownText?, hget]
    refine ⟨steps + 1, ?_⟩
    rw [List.findSome?_cons, hfirst]
    cases hown : dictionary.own? key with
    | some text =>
      have hsearch : library.search key (steps + 1) ref = .ok (some text) := by
        simp [search, hget, hown]
      simp only [firstAnswer, hsearch]
    | none =>
      have hsearch : library.search key (steps + 1) ref =
          firstAnswer (library.search key steps) dictionary.children := by
        simp [search, hget, hown]
      rw [firstAnswer_append] at hsteps
      rw [firstAnswer, hsearch]
      cases hbelow : firstAnswer (library.search key steps) dictionary.children with
      | error e => simp [hbelow] at hsteps
      | ok found =>
        cases found with
        | some text => simpa only [hbelow] using hsteps
        | none =>
          -- the others are asked with one step more than in the induction
          simp only [hbelow] at hsteps
          exact firstAnswer_mono (fun _ _ => search_mono (Nat.le_succ steps)) hsteps

/-- A key is looked up by going through the dictionaries in depth-first order. -/
theorem Visits.lookup_eq (hclosed : library.Closed) {ref : DictionaryRef}
    (href : ref < library.size) (hcircle : ¬ library.LeadsInCircle ref)
    {order : List DictionaryRef} (h : library.Visits [ref] order) (key : Text) :
    library.lookup ref key = .ok (order.findSome? (library.ownText? key)) := by
  obtain ⟨found, hfound⟩ := lookup_isOk hclosed href hcircle key
  obtain ⟨steps, hsteps⟩ := h.exists_firstAnswer key
  have hsearch : library.search key steps ref =
      .ok (order.findSome? (library.ownText? key)) := by
    rw [firstAnswer] at hsteps
    split at hsteps
    · cases hsteps
    · next text htext => exact htext.trans hsteps
    · next hnone => exact hnone.trans hsteps
  have hlong := search_mono (Nat.le_max_left steps library.size) hsearch
  have hlong' := search_mono (Nat.le_max_right steps library.size) hfound
  rw [hfound, ← hlong', hlong]

end Phrasebook.Library
