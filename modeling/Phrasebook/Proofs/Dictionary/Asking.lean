import Mathlib.Data.Fintype.Card
import Phrasebook.Proofs.Dictionary.DepthFirst

/-!
Asking a dictionary is asking its own entries and then its children in turn. A search may go only
so many steps down, but this is no matter: one that ends at all ends within as many steps as there
are dictionaries. For on the way down that takes longest every dictionary needs one step less than
the one above it, so that none comes twice.
-/
namespace Phrasebook.Library

/-- There is one way to fail, so outcomes are equal if they succeed with the same values. -/
theorem eq_of_ok_iff {α : Type} {x y : Except Endless α} (h : ∀ a, x = .ok a ↔ y = .ok a) :
    x = y := by
  cases x with
  | ok a => exact ((h a).1 rfl).symm
  | error e =>
    cases y with
    | ok b => exact (h b).2 rfl
    | error e' => rfl

variable {library : Library} {key : Text}

/-- A search does not end in this many steps, but in one more. -/
def Exceeds (library : Library) (key : Text) (steps : Nat) (ref : DictionaryRef) : Prop :=
  library.search key steps ref = .error ⟨⟩ ∧
    ∃ answer, library.search key (steps + 1) ref = .ok answer

/-- If asking in turn ends only when more of the answers are there, one that was missing is. -/
theorem exists_missing_of_firstAnswer {ask again : DictionaryRef → Except Endless (Option Text)}
    (h : ∀ ref answer, ask ref = .ok answer → again ref = .ok answer)
    {refs : List DictionaryRef} {answer : Option Text} (hask : firstAnswer ask refs = .error ⟨⟩)
    (hagain : firstAnswer again refs = .ok answer) :
    ∃ ref ∈ refs, ask ref = .error ⟨⟩ ∧ ∃ found, again ref = .ok found := by
  induction refs with
  | nil => cases hask
  | cons ref refs ih =>
    cases hfirst : ask ref with
    | error e =>
      cases hfound : again ref with
      | error e' => simp [firstAnswer, hfound] at hagain
      | ok found => exact ⟨ref, List.mem_cons_self, hfirst, found, hfound⟩
    | ok found =>
      have hsame := h ref found hfirst
      cases found with
      | some text => simp [firstAnswer, hfirst] at hask
      | none =>
        simp only [firstAnswer, hfirst] at hask
        simp only [firstAnswer, hsame] at hagain
        obtain ⟨late, hmem, hlate⟩ := ih hask hagain
        exact ⟨late, List.mem_cons_of_mem ref hmem, hlate⟩

/-- A search that needs more than some steps waits for a child that needs one step less. -/
theorem Exceeds.exists_child {steps : Nat} {ref : DictionaryRef}
    (h : library.Exceeds key (steps + 1) ref) :
    ∃ child, library.Child ref child ∧ library.Exceeds key steps child := by
  obtain ⟨hshort, answer, hlong⟩ := h
  cases hget : library.get? ref with
  | none => simp [search, hget] at hshort
  | some dictionary =>
    cases hown : dictionary.own? key with
    | some text => simp [search, hget, hown] at hshort
    | none =>
      simp only [search, hget, hown] at hshort hlong
      obtain ⟨child, hchild, hmissing⟩ := exists_missing_of_firstAnswer
        (fun _ _ => search_mono (Nat.le_succ steps)) hshort hlong
      exact ⟨child, ⟨dictionary, hget, hchild⟩, hmissing⟩

/-- Below a search that needs many steps every smaller number of steps is needed somewhere. -/
theorem Exceeds.exists_below (hclosed : library.Closed) {steps : Nat} {ref : DictionaryRef}
    (href : ref < library.size) (h : library.Exceeds key steps ref) {fewer : Nat}
    (hle : fewer ≤ steps) : ∃ below < library.size, library.Exceeds key fewer below := by
  induction steps generalizing ref with
  | zero =>
    obtain rfl := Nat.le_zero.1 hle
    exact ⟨ref, href, h⟩
  | succ steps ih =>
    rcases Nat.lt_or_eq_of_le hle with hlt | rfl
    · obtain ⟨child, hchild, hneeds⟩ := h.exists_child
      exact ih (hclosed ref child hchild) hneeds (Nat.le_of_lt_succ hlt)
    · exact ⟨ref, href, h⟩

theorem Exceeds.unique {steps other : Nat} {ref : DictionaryRef}
    (h : library.Exceeds key steps ref) (hother : library.Exceeds key other ref) :
    steps = other := by
  have hnot : ∀ {fewer more : Nat}, library.Exceeds key fewer ref →
      library.Exceeds key more ref → ¬ fewer < more := by
    rintro fewer more ⟨-, answer, hends⟩ ⟨hshort, -⟩ hlt
    rw [search_mono hlt hends] at hshort
    cases hshort
  exact Nat.le_antisymm (Nat.le_of_not_lt (hnot hother h)) (Nat.le_of_not_lt (hnot h hother))

theorem Exceeds.lt_size (hclosed : library.Closed) {steps : Nat} {ref : DictionaryRef}
    (href : ref < library.size) (h : library.Exceeds key steps ref) : steps < library.size := by
  have hbelow : ∀ fewer : Fin (steps + 1), ∃ below : Fin library.size,
      library.Exceeds key fewer below := by
    intro fewer
    obtain ⟨below, hlt, hneeds⟩ := h.exists_below hclosed href (Nat.le_of_lt_succ fewer.isLt)
    exact ⟨⟨below, hlt⟩, hneeds⟩
  choose place hplace using hbelow
  have hinjective : Function.Injective place := by
    intro fewer other heq
    have hother := hplace other
    rw [← heq] at hother
    exact Fin.ext ((hplace fewer).unique hother)
  have hcard := Fintype.card_le_of_injective place hinjective
  rwa [Fintype.card_fin, Fintype.card_fin] at hcard

/-- A look-up gives an answer if and only if a search of any depth does. -/
theorem lookup_eq_ok_iff (hclosed : library.Closed) (hsize : 0 < library.size)
    {ref : DictionaryRef} {answer : Option Text} :
    library.lookup ref key = .ok answer ↔ ∃ steps, library.search key steps ref = .ok answer := by
  refine ⟨fun h => ⟨library.size, h⟩, ?_⟩
  rintro ⟨steps, h⟩
  induction steps with
  | zero => cases h
  | succ steps ih =>
    cases hshort : library.search key steps ref with
    | ok found =>
      have hlong := search_mono (Nat.le_succ steps) hshort
      rw [h] at hlong
      cases hlong
      exact ih hshort
    | error e =>
      refine search_mono ?_ h
      by_cases href : ref < library.size
      · exact Exceeds.lt_size hclosed href ⟨hshort, answer, h⟩
      · -- a dictionary that is not there answers at once
        have hget : library.get? ref = none := List.getElem?_eq_none (Nat.le_of_not_lt href)
        cases steps with
        | zero => exact hsize
        | succ steps => simp [search, hget] at hshort

/-- A dictionary is asked by asking its own entries, and then its children in turn. -/
theorem lookup_eq (hclosed : library.Closed) {ref : DictionaryRef} {dictionary : Dictionary}
    (hget : library.get? ref = some dictionary) (key : Text) :
    library.lookup ref key =
      match dictionary.own? key with
      | some text => .ok (some text)
      | none => firstAnswer (fun child => library.lookup child key) dictionary.children := by
  have hsize : 0 < library.size := Nat.zero_lt_of_lt (lt_size_of_get? hget)
  refine eq_of_ok_iff fun answer => ?_
  rw [lookup_eq_ok_iff hclosed hsize]
  cases hown : dictionary.own? key with
  | some text =>
    constructor
    · rintro ⟨steps, h⟩
      cases steps with
      | zero => cases h
      | succ steps => simpa [search, hget, hown] using h
    · intro h
      exact ⟨1, by simpa [search, hget, hown] using h⟩
  | none =>
    constructor
    · rintro ⟨steps, h⟩
      cases steps with
      | zero => cases h
      | succ steps =>
        simp only [search, hget, hown] at h
        refine firstAnswer_mono (fun child found hfound => ?_) h
        exact (lookup_eq_ok_iff hclosed hsize).2 ⟨steps, hfound⟩
    · intro h
      refine ⟨library.size + 1, ?_⟩
      simp only [search, hget, hown]
      exact h

end Phrasebook.Library
