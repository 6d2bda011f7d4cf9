import Mathlib.Data.List.Chain
import Mathlib.Logic.Relation
import Phrasebook.Dictionary.Library

/-!
The dictionaries of a library contain one another. A dictionary leads into a circle if the way
down through its children comes to a dictionary that contains itself, be it through others.
Listing a dictionary ends if and only if it does not lead into a circle: the ways down from it
then visit no dictionary twice, so none of them is longer than the library. Looking up a key ends
wherever listing does.
-/
namespace Phrasebook.Library

def Child (library : Library) (parent child : DictionaryRef) : Prop :=
  ∃ dictionary, library.get? parent = some dictionary ∧ child ∈ dictionary.children

/-- The dictionaries that are asked when one is: itself, its children, theirs, and so on. -/
abbrev Reaches (library : Library) : DictionaryRef → DictionaryRef → Prop :=
  Relation.ReflTransGen library.Child

abbrev Contains (library : Library) : DictionaryRef → DictionaryRef → Prop :=
  Relation.TransGen library.Child

def LeadsInCircle (library : Library) (ref : DictionaryRef) : Prop :=
  ∃ turn, library.Reaches ref turn ∧ library.Contains turn turn

def Acyclic (library : Library) : Prop := ∀ ref, ¬ library.Contains ref ref

def IsComposite (library : Library) (ref : DictionaryRef) : Prop :=
  ∃ locale entries children, library.get? ref = some (.composite locale entries children)

def Closed (library : Library) : Prop :=
  ∀ parent child, library.Child parent child → child < library.size

@[simp] theorem size_add (library : Library) (dictionary : Dictionary) :
    (library.add dictionary).2.size = library.size + 1 := by
  simp [add, size]

@[simp] theorem size_modify (library : Library) (ref : DictionaryRef)
    (f : Dictionary → Dictionary) : (library.modify ref f).size = library.size := by
  simp [modify, size]

theorem get?_add (library : Library) (dictionary : Dictionary) (ref : DictionaryRef) :
    (library.add dictionary).2.get? ref =
      if ref = library.size then some dictionary else library.get? ref := by
  show (library.dictionaries ++ [dictionary])[ref]? = _
  rcases Nat.lt_trichotomy ref library.size with hlt | heq | hgt
  · rw [if_neg (Nat.ne_of_lt hlt), List.getElem?_append_left hlt]
    rfl
  · subst heq
    rw [if_pos rfl]
    exact List.getElem?_concat_length
  · have hlength : (library.dictionaries ++ [dictionary]).length ≤ ref := by
      rw [List.length_append]
      exact hgt
    rw [if_neg (Nat.ne_of_gt hgt), List.getElem?_eq_none hlength]
    exact (List.getElem?_eq_none (Nat.le_of_lt hgt)).symm

theorem get?_modify (library : Library) (changed ref : DictionaryRef)
    (f : Dictionary → Dictionary) :
    (library.modify changed f).get? ref =
      if changed = ref then (library.get? ref).map f else library.get? ref := by
  simp only [modify, get?, List.getElem?_modify]
  split <;> simp

theorem lt_size_of_get? {library : Library} {ref : DictionaryRef} {dictionary : Dictionary}
    (h : library.get? ref = some dictionary) : ref < library.size :=
  (List.getElem?_eq_some_iff.1 h).1

theorem child_add (library : Library) (dictionary : Dictionary) (parent child : DictionaryRef) :
    (library.add dictionary).2.Child parent child ↔
      library.Child parent child ∨ parent = library.size ∧ child ∈ dictionary.children := by
  simp only [Child, get?_add]
  by_cases hparent : parent = library.size
  · subst hparent
    have hnone : library.get? library.size = none := List.getElem?_eq_none (Nat.le_refl _)
    simp [hnone]
  · simp [hparent]

/-- What changes no children changes nothing in the containment. -/
theorem child_modify {f : Dictionary → Dictionary} (library : Library) (ref : DictionaryRef)
    (hf : ∀ dictionary, (f dictionary).children = dictionary.children)
    (parent child : DictionaryRef) :
    (library.modify ref f).Child parent child ↔ library.Child parent child := by
  simp only [Child, get?_modify]
  by_cases href : ref = parent
  · simp [href, hf]
  · simp [href]

/-- Giving a composite a child adds this one edge. -/
theorem child_attach {library : Library} {composite : DictionaryRef} {locale : Text}
    {entries : OrderedMap Entry} {children : List DictionaryRef}
    (hget : library.get? composite = some (.composite locale entries children))
    (added : DictionaryRef) (place : Option Int) (parent child : DictionaryRef) :
    (library.modify composite (Dictionary.withChildren (insertAt children added place))).Child
        parent child ↔
      library.Child parent child ∨ parent = composite ∧ child = added := by
  simp only [Child, get?_modify]
  by_cases hparent : composite = parent
  · subst hparent
    simp [hget, Dictionary.withChildren, Dictionary.children, mem_insertAt, or_comm]
  · simp [hparent, Ne.symm hparent]

/-- A new child of the library leaves it closed. -/
theorem Closed.attach {library : Library} (hclosed : library.Closed)
    {composite added : DictionaryRef} {locale : Text} {entries : OrderedMap Entry}
    {children : List DictionaryRef}
    (hget : library.get? composite = some (.composite locale entries children))
    (hadded : added < library.size) (place : Option Int) :
    (library.modify composite
      (Dictionary.withChildren (insertAt children added place))).Closed := by
  intro parent child hchild
  rw [size_modify]
  rcases (child_attach hget added place parent child).1 hchild with hold | ⟨-, rfl⟩
  · exact hclosed parent child hold
  · exact hadded

theorem IsComposite.add {library : Library} {ref : DictionaryRef} (h : library.IsComposite ref)
    (dictionary : Dictionary) : (library.add dictionary).2.IsComposite ref := by
  obtain ⟨locale, entries, children, hget⟩ := h
  have hne : ref ≠ library.size := Nat.ne_of_lt (lt_size_of_get? hget)
  exact ⟨locale, entries, children, by rw [get?_add, if_neg hne, hget]⟩

/-- Filling a dictionary and giving it children leaves composites composite. -/
theorem IsComposite.modify {library : Library} {ref : DictionaryRef} (h : library.IsComposite ref)
    {f : Dictionary → Dictionary} (changed : DictionaryRef)
    (hf : ∀ dictionary, (f dictionary).isComposite = dictionary.isComposite) :
    (library.modify changed f).IsComposite ref := by
  obtain ⟨locale, entries, children, hget⟩ := h
  unfold IsComposite
  rw [get?_modify]
  split
  · have hkind := hf (.composite locale entries children)
    rw [hget, Option.map_some]
    cases hchanged : f (.composite locale entries children) with
    | composite locale entries children => exact ⟨locale, entries, children, rfl⟩
    | simple locale entries => rw [hchanged] at hkind; cases hkind
    | foreign lookup listing => rw [hchanged] at hkind; cases hkind
  · exact ⟨locale, entries, children, hget⟩

/-- There is no circle where every dictionary is younger than its children. -/
theorem acyclic_of_child_lt {library : Library}
    (h : ∀ parent child, library.Child parent child → child < parent) : library.Acyclic := by
  have hdown : ∀ parent below, library.Contains parent below → below < parent := by
    intro parent below hcontains
    induction hcontains with
    | single hchild => exact h parent _ hchild
    | tail _ hchild ih => exact Nat.lt_trans (h _ _ hchild) ih
  intro ref hcircle
  exact Nat.lt_irrefl ref (hdown ref ref hcircle)

theorem Acyclic.not_leadsInCircle {library : Library} (h : library.Acyclic)
    (ref : DictionaryRef) : ¬ library.LeadsInCircle ref :=
  fun ⟨turn, _, hturn⟩ => h turn hturn

/-- Who leads into a circle has a child that does. -/
theorem LeadsInCircle.exists_child {library : Library} {ref : DictionaryRef}
    (h : library.LeadsInCircle ref) :
    ∃ child, library.Child ref child ∧ library.LeadsInCircle child := by
  obtain ⟨turn, hdown, hturn⟩ := h
  rcases Relation.ReflTransGen.cases_head hdown with rfl | ⟨child, hchild, hrest⟩
  · obtain ⟨child, hchild, hback⟩ := Relation.TransGen.head'_iff.1 hturn
    exact ⟨child, hchild, ref, hback, hturn⟩
  · exact ⟨child, hchild, turn, hrest, hturn⟩

theorem exists_path_of_leadsInCircle {library : Library} {ref : DictionaryRef}
    (h : library.LeadsInCircle ref) (n : Nat) :
    ∃ path : List DictionaryRef, path.length = n ∧ List.IsChain library.Child (ref :: path) := by
  induction n generalizing ref with
  | zero => exact ⟨[], rfl, List.isChain_singleton ref⟩
  | succ n ih =>
    obtain ⟨child, hchild, hcircle⟩ := h.exists_child
    obtain ⟨path, hlength, hpath⟩ := ih hcircle
    exact ⟨child :: path, by simp [hlength], List.isChain_cons_cons.2 ⟨hchild, hpath⟩⟩

theorem reaches_of_mem_path {library : Library} {ref below : DictionaryRef}
    {path : List DictionaryRef} (hpath : List.IsChain library.Child (ref :: path))
    (hbelow : below ∈ ref :: path) : library.Reaches ref below := by
  induction path generalizing ref with
  | nil =>
    obtain rfl := List.mem_singleton.1 hbelow
    exact Relation.ReflTransGen.refl
  | cons child path ih =>
    obtain ⟨hchild, hrest⟩ := List.isChain_cons_cons.1 hpath
    rcases List.mem_cons.1 hbelow with rfl | hmem
    · exact Relation.ReflTransGen.refl
    · exact Relation.ReflTransGen.head hchild (ih hrest hmem)

/-- A way down that does not lead into a circle visits no dictionary twice. -/
theorem nodup_path {library : Library} {ref : DictionaryRef} {path : List DictionaryRef}
    (hcircle : ¬ library.LeadsInCircle ref) (hpath : List.IsChain library.Child (ref :: path)) :
    (ref :: path).Nodup := by
  have hdown : List.Pairwise library.Contains (ref :: path) :=
    List.isChain_iff_pairwise.1 (hpath.imp fun _ _ h => Relation.TransGen.single h)
  refine hdown.imp_of_mem fun {upper lower} hupper _ hcontains heq => ?_
  subst heq
  exact hcircle ⟨upper, reaches_of_mem_path hpath hupper, hcontains⟩

theorem Closed.lt_size_of_reaches {library : Library} (hclosed : library.Closed)
    {ref below : DictionaryRef} (href : ref < library.size) (h : library.Reaches ref below) :
    below < library.size := by
  rcases Relation.ReflTransGen.cases_tail h with rfl | ⟨parent, _, hchild⟩
  · exact href
  · exact hclosed parent below hchild

/-- On a way without circles no dictionary is met twice, so the way is shorter than the library. -/
theorem length_path_lt {library : Library} (hclosed : library.Closed) {ref : DictionaryRef}
    (href : ref < library.size) (hcircle : ¬ library.LeadsInCircle ref)
    {path : List DictionaryRef} (hpath : List.IsChain library.Child (ref :: path)) :
    path.length < library.size := by
  have hsubset : ref :: path ⊆ List.range library.size := fun below hbelow =>
    List.mem_range.2 (hclosed.lt_size_of_reaches href (reaches_of_mem_path hpath hbelow))
  have hlength := (nodup_path hcircle hpath).length_le_of_subset hsubset
  rw [List.length_cons, List.length_range] at hlength
  exact hlength

/-- A merge ends if and only if each listing does. -/
theorem mergeAll_isOk_iff (list : DictionaryRef → Except Endless (OrderedMap Text))
    (merged : OrderedMap Text) (refs : List DictionaryRef) :
    (∃ all, mergeAll list merged refs = .ok all) ↔
      ∀ ref ∈ refs, ∃ listing, list ref = .ok listing := by
  induction refs generalizing merged with
  | nil => simp [mergeAll]
  | cons ref refs ih =>
    cases hlist : list ref with
    | error e => simp [mergeAll, hlist]
    | ok listing => simp [mergeAll, hlist, ih]

/-- Listing goes as many steps down as the longest way is long. -/
theorem collect_isOk_iff (library : Library) (steps : Nat) (ref : DictionaryRef) :
    (∃ listing, library.collect steps ref = .ok listing) ↔
      ∀ path : List DictionaryRef, List.IsChain library.Child (ref :: path) →
        path.length < steps := by
  induction steps generalizing ref with
  | zero => simpa [collect] using ⟨[], List.isChain_singleton ref⟩
  | succ steps ih =>
    have hchildren : (∃ listing, library.collect (steps + 1) ref = .ok listing) ↔
        ∀ child, library.Child ref child →
          ∃ listing, library.collect steps child = .ok listing := by
      cases hget : library.get? ref with
      | none => simp [collect, Child, hget]
      | some dictionary => simp [collect, Child, hget, mergeAll_isOk_iff]
    rw [hchildren]
    constructor
    · intro h path hpath
      cases path with
      | nil => simp
      | cons child path =>
        obtain ⟨hchild, hrest⟩ := List.isChain_cons_cons.1 hpath
        simpa using (ih child).1 (h child hchild) path hrest
    · intro h child hchild
      refine (ih child).2 fun path hpath => ?_
      simpa using h (child :: path) (List.isChain_cons_cons.2 ⟨hchild, hpath⟩)

/-- However many steps a listing may go, it does not end in a circle. -/
theorem collect_eq_error {library : Library} {ref : DictionaryRef}
    (hcircle : library.LeadsInCircle ref) (steps : Nat) :
    library.collect steps ref = .error ⟨⟩ := by
  cases hcollect : library.collect steps ref with
  | error e => rfl
  | ok listing =>
    obtain ⟨path, hlength, hpath⟩ := exists_path_of_leadsInCircle hcircle steps
    have hshort := (library.collect_isOk_iff steps ref).1 ⟨listing, hcollect⟩ path hpath
    omega

/-- Listing a dictionary ends unless it leads into a circle. -/
theorem listing_isOk_iff {library : Library} (hclosed : library.Closed) {ref : DictionaryRef}
    (href : ref < library.size) :
    (∃ listing, library.listing ref = .ok listing) ↔ ¬ library.LeadsInCircle ref := by
  constructor
  · rintro ⟨listing, hlisting⟩ hcircle
    have hendless := collect_eq_error hcircle library.size
    rw [Library.listing, hendless] at hlisting
    cases hlisting
  · intro hcircle
    rw [listing, collect_isOk_iff]
    intro path hpath
    exact length_path_lt hclosed href hcircle hpath

theorem firstAnswer_isOk {ask : DictionaryRef → Except Endless (Option Text)}
    {refs : List DictionaryRef} (h : ∀ ref ∈ refs, ∃ found, ask ref = .ok found) :
    ∃ found, firstAnswer ask refs = .ok found := by
  induction refs with
  | nil => exact ⟨none, rfl⟩
  | cons ref refs ih =>
    obtain ⟨hfirst, hrest⟩ := List.forall_mem_cons.1 h
    obtain ⟨found, hfound⟩ := hfirst
    cases found with
    | none => simpa [firstAnswer, hfound] using ih hrest
    | some text => exact ⟨some text, by simp [firstAnswer, hfound]⟩

theorem search_isOk_of_collect {library : Library} {steps : Nat} {ref : DictionaryRef}
    (h : ∃ listing, library.collect steps ref = .ok listing) (key : Text) :
    ∃ found, library.search key steps ref = .ok found := by
  induction steps generalizing ref with
  | zero => simp [collect] at h
  | succ steps ih =>
    cases hget : library.get? ref with
    | none => exact ⟨none, by simp [search, hget]⟩
    | some dictionary =>
      simp only [collect, hget, mergeAll_isOk_iff] at h
      cases hown : dictionary.own? key with
      | some text => exact ⟨some text, by simp [search, hget, hown]⟩
      | none =>
        simp only [search, hget, hown]
        exact firstAnswer_isOk fun child hchild => ih (h child hchild)

theorem lookup_isOk {library : Library} (hclosed : library.Closed) {ref : DictionaryRef}
    (href : ref < library.size) (hcircle : ¬ library.LeadsInCircle ref) (key : Text) :
    ∃ found, library.lookup ref key = .ok found :=
  search_isOk_of_collect ((listing_isOk_iff hclosed href).2 hcircle) key

/-- What some dictionaries answer is the answer of one of them. -/
theorem exists_of_firstAnswer {ask : DictionaryRef → Except Endless (Option Text)}
    {refs : List DictionaryRef} {text : Text} (h : firstAnswer ask refs = .ok (some text)) :
    ∃ ref ∈ refs, ask ref = .ok (some text) := by
  induction refs with
  | nil => simp [firstAnswer] at h
  | cons ref refs ih =>
    cases hask : ask ref with
    | error e => simp [firstAnswer, hask] at h
    | ok found =>
      cases found with
      | some first =>
        simp only [firstAnswer, hask, Except.ok.injEq] at h
        exact ⟨ref, List.mem_cons_self, by rw [hask, h]⟩
      | none =>
        simp only [firstAnswer, hask] at h
        obtain ⟨answerer, hmem, hanswer⟩ := ih h
        exact ⟨answerer, List.mem_cons_of_mem ref hmem, hanswer⟩

/-- A key that is found is the own key of a dictionary that was asked. -/
theorem exists_own_of_search {library : Library} {key text : Text} {steps : Nat}
    {ref : DictionaryRef} (h : library.search key steps ref = .ok (some text)) :
    ∃ below dictionary, library.Reaches ref below ∧ library.get? below = some dictionary ∧
      dictionary.own? key = some text := by
  induction steps generalizing ref with
  | zero => simp [search] at h
  | succ steps ih =>
    cases hget : library.get? ref with
    | none => simp [search, hget] at h
    | some dictionary =>
      cases hown : dictionary.own? key with
      | some own =>
        simp only [search, hget, hown, Except.ok.injEq] at h
        exact ⟨ref, dictionary, Relation.ReflTransGen.refl, hget, hown.trans h⟩
      | none =>
        simp only [search, hget, hown] at h
        obtain ⟨child, hchild, hanswer⟩ := exists_of_firstAnswer h
        obtain ⟨below, holder, hdown, hholder⟩ := ih hanswer
        exact ⟨below, holder, Relation.ReflTransGen.head ⟨dictionary, hget, hchild⟩ hdown,
          hholder⟩

theorem firstAnswer_eq_error {ask : DictionaryRef → Except Endless (Option Text)}
    {refs : List DictionaryRef} (hnone : ∀ ref ∈ refs, ∀ text, ask ref ≠ .ok (some text))
    (hendless : ∃ ref ∈ refs, ask ref = .error ⟨⟩) : firstAnswer ask refs = .error ⟨⟩ := by
  induction refs with
  | nil => simp at hendless
  | cons ref refs ih =>
    obtain ⟨hfirst, hrest⟩ := List.forall_mem_cons.1 hnone
    cases hask : ask ref with
    | error e => simp [firstAnswer, hask]
    | ok found =>
      cases found with
      | some text => exact absurd hask (hfirst text)
      | none =>
        simp only [firstAnswer, hask]
        refine ih hrest ?_
        obtain ⟨endless, hmem, herror⟩ := hendless
        rcases List.mem_cons.1 hmem with rfl | hmem
        · rw [hask] at herror
          cases herror
        · exact ⟨endless, hmem, herror⟩

/-- Nothing stops a search for a key that is nowhere from running into the circle. -/
theorem search_eq_error {library : Library} {key : Text} {ref : DictionaryRef}
    (hcircle : library.LeadsInCircle ref)
    (hnowhere : ∀ dictionary ∈ library.dictionaries, dictionary.own? key = none) (steps : Nat) :
    library.search key steps ref = .error ⟨⟩ := by
  induction steps generalizing ref with
  | zero => rfl
  | succ steps ih =>
    obtain ⟨child, ⟨dictionary, hget, hchild⟩, hbelow⟩ := hcircle.exists_child
    have hown := hnowhere dictionary (List.mem_of_getElem? hget)
    simp only [search, hget, hown]
    refine firstAnswer_eq_error (fun other _ text hfound => ?_) ⟨child, hchild, ih hbelow⟩
    obtain ⟨_, holder, _, hholder, hkey⟩ := exists_own_of_search hfound
    rw [hnowhere holder (List.mem_of_getElem? hholder)] at hkey
    cases hkey

end Phrasebook.Library
