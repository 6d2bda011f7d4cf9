import Mathlib.Data.List.Forall2
import Phrasebook.Message.Choice
import Phrasebook.Message.Review

/-!
Reading a message stops at its first malformed segment, while a review goes on and reports every
one. Both scan the same segments in the same order, so the first error of a review is the fault of
the reading, and there is none if and only if reading succeeds. Reading keeps the segments apart:
there is a clause for each of them, which is standard if and only if no interval was found.
-/
namespace Phrasebook

theorem mapM_eq_ok_iff {ε α β : Type} (f : α → Except ε β) (list : List α) (results : List β) :
    list.mapM f = .ok results ↔ List.Forall₂ (fun a b => f a = .ok b) list results := by
  induction list generalizing results with
  | nil =>
    constructor
    · rintro ⟨⟩
      exact List.Forall₂.nil
    · rintro ⟨⟩
      rfl
  | cons a list ih =>
    rw [List.mapM_cons]
    constructor
    · intro h
      cases hfirst : f a with
      | error e =>
        rw [hfirst] at h
        cases h
      | ok b =>
        cases hrest : list.mapM f with
        | error e =>
          rw [hfirst, hrest] at h
          cases h
        | ok rest =>
          rw [hfirst, hrest] at h
          cases h
          exact List.Forall₂.cons hfirst ((ih rest).1 hrest)
    · intro h
      cases h with
      | cons hfirst hrest =>
        rw [hfirst, (ih _).2 hrest]
        rfl

namespace Clause

theorem read_eq_error_iff (segment : Text) (fault : Interval.Malformed) :
    Clause.read segment = .error fault ↔ Interval.scan segment = .error fault := by
  unfold Clause.read
  cases hscan : Interval.scan segment with
  | error other => simp
  | ok found =>
    cases found with
    | none => simp
    | some found => simp

/-- A clause is standard if no interval was found, and explicit otherwise. -/
theorem cases_of_read {segment : Text} {clause : Clause} (h : Clause.read segment = .ok clause) :
    (Interval.scan segment = .ok none ∧ clause = .standard (dropLabel segment)) ∨
      ∃ interval cursor, Interval.scan segment = .ok (some (interval, cursor)) ∧
        clause = .explicit interval (Text.trimLeft cursor.rest) := by
  unfold Clause.read at h
  cases hscan : Interval.scan segment with
  | error fault =>
    rw [hscan] at h
    cases h
  | ok found =>
    rw [hscan] at h
    cases found with
    | none =>
      cases h
      exact Or.inl ⟨rfl, rfl⟩
    | some found =>
      cases h
      exact Or.inr ⟨found.1, found.2, rfl, rfl⟩

end Clause

namespace Message

def errorAt? (place : Text × Nat) : Option Report.Error :=
  match Interval.scan place.1 with
  | .error fault => some (malformedError fault place.2)
  | .ok _ => none

theorem reviewErrors_eq_filterMap (text : Text) :
    reviewErrors text = (segments text).zipIdx.filterMap errorAt? := by
  rw [reviewErrors, scans, List.zipIdx_map, List.filterMap_map]
  congr 1
  funext place
  rcases place with ⟨segment, index⟩
  cases hscan : Interval.scan segment with
  | error fault => simp [errorAt?, hscan]
  | ok found => simp [errorAt?, hscan]

/-- The errors of a review are the faults of the segments, each with the number of its segment. -/
theorem mem_reviewErrors_iff {text : Text} {error : Report.Error} :
    error ∈ reviewErrors text ↔ ∃ (index : Nat) (segment : Text) (fault : Interval.Malformed),
      (segments text)[index]? = some segment ∧ Interval.scan segment = .error fault ∧
        error = malformedError fault index := by
  rw [reviewErrors_eq_filterMap, List.mem_filterMap]
  constructor
  · rintro ⟨⟨segment, index⟩, hplace, herror⟩
    have hget := List.mem_zipIdx_iff_getElem?.1 hplace
    cases hscan : Interval.scan segment with
    | error fault =>
      simp only [errorAt?, hscan, Option.some.injEq] at herror
      exact ⟨index, segment, fault, hget, hscan, herror.symm⟩
    | ok found => simp [errorAt?, hscan] at herror
  · rintro ⟨index, segment, fault, hget, hscan, rfl⟩
    exact ⟨(segment, index), List.mem_zipIdx_iff_getElem?.2 hget, by simp [errorAt?, hscan]⟩

/-- The two ways through the segments: one stops at the first fault, the other begins with it. -/
theorem filterMap_errorAt?_of_mapM (segments : List Text) (start : Nat) :
    match segments.mapM Clause.read with
    | .ok _ => (segments.zipIdx start).filterMap errorAt? = []
    | .error fault => ∃ index rest,
      (segments.zipIdx start).filterMap errorAt? = malformedError fault index :: rest := by
  induction segments generalizing start with
  | nil => rfl
  | cons segment segments ih =>
    rw [List.mapM_cons, List.zipIdx_cons]
    cases hclause : Clause.read segment with
    | error fault =>
      have hscan := (Clause.read_eq_error_iff segment fault).1 hclause
      refine ⟨start, (segments.zipIdx (start + 1)).filterMap errorAt?, ?_⟩
      exact List.filterMap_cons_some (by simp [errorAt?, hscan])
    | ok clause =>
      have hskip : errorAt? (segment, start) = none := by
        cases hscan : Interval.scan segment with
        | error fault =>
          rw [(Clause.read_eq_error_iff segment fault).2 hscan] at hclause
          cases hclause
        | ok found => simp [errorAt?, hscan]
      rw [List.filterMap_cons_none hskip]
      have hrest := ih (start + 1)
      cases hread : segments.mapM Clause.read with
      | error fault =>
        rw [hread] at hrest
        exact hrest
      | ok clauses =>
        rw [hread] at hrest
        exact hrest

/-- Reading succeeds if and only if a review finds no error. -/
theorem reviewErrors_eq_nil_iff (text : Text) :
    reviewErrors text = [] ↔ ∃ message, read text = .ok message := by
  have hmapM := filterMap_errorAt?_of_mapM (segments text) 0
  rw [reviewErrors_eq_filterMap, read]
  cases hread : (segments text).mapM Clause.read with
  | error fault =>
    rw [hread] at hmapM
    obtain ⟨index, rest, herrors⟩ := hmapM
    simp [herrors, Except.map]
  | ok clauses =>
    rw [hread] at hmapM
    simp [hmapM, Except.map]

theorem exists_reviewErrors_of_read {text : Text} {fault : Interval.Malformed}
    (h : read text = .error fault) :
    ∃ index rest, reviewErrors text = malformedError fault index :: rest := by
  have hmapM := filterMap_errorAt?_of_mapM (segments text) 0
  rw [reviewErrors_eq_filterMap]
  cases hread : (segments text).mapM Clause.read with
  | error other =>
    rw [hread] at hmapM
    simp only [read, hread, Except.map, Except.error.injEq] at h
    subst h
    exact hmapM
  | ok clauses => simp [read, hread, Except.map] at h

theorem select_ne_malformed (message : Message) (count : Number) (language : Text)
    (fault : Interval.Malformed) : message.select count language ≠ .error (.malformed fault) := by
  have hnone : message.noChoice count language ≠ .malformed fault := by
    unfold noChoice
    split <;> exact SelectError.noConfusion
  unfold select
  repeat' split
  all_goals simp [hnone]

theorem selectFrom_eq_malformed_iff (text : Text) (count : Number) (language : Text)
    (fault : Interval.Malformed) :
    selectFrom text count language = .error (.malformed fault) ↔ read text = .error fault := by
  unfold selectFrom
  cases hread : read text with
  | error other => simp
  | ok message =>
    simp [select_ne_malformed]

/-- The errors of a review are at the segments where no scan succeeds, in their order. -/
theorem segment_reviewErrors (text : Text) :
    (reviewErrors text).map Report.Error.segment =
      ((List.range (segments text).length).filter fun index =>
        ((segments text)[index]?).any fun segment => !(Interval.scan segment).isOk).map
          fun index : Nat => some (index : Int) := by
  have hfilter : (segments text).zipIdx.filterMap (fun place =>
      (errorAt? place).map Report.Error.segment) =
      ((segments text).zipIdx.filter fun place => !(Interval.scan place.1).isOk).map
        fun place => some (place.2 : Int) := by
    rw [← List.filterMap_eq_map, List.filterMap_filter]
    congr 1
    funext place
    cases hscan : Interval.scan place.1 with
    | error fault => simp [errorAt?, hscan, malformedError, Except.isOk, Except.toBool]
    | ok found => simp [errorAt?, hscan, Except.isOk, Except.toBool]
  rw [reviewErrors_eq_filterMap, List.map_filterMap, hfilter]
  rw [List.range_eq_range', ← List.zipIdx_map_snd, List.filter_map, List.map_map]
  congr 1
  refine List.filter_congr fun place hplace => ?_
  have hget := List.mem_zipIdx_iff_getElem?.1 hplace
  simp [hget]

/-- A review reports exactly what keeps a message from being read. -/
theorem review_agrees_with_read (text language : Text) :
    (review text language).errors.map Report.Error.segment =
      (((List.range (segments text).length).filter fun index =>
        ((segments text)[index]?).any fun segment => !(Interval.scan segment).isOk).map
          fun index : Nat => some (index : Int)) ∧
    ((review text language).isValid ↔ ∃ message, read text = .ok message) ∧
    ((review text language).isValid ↔
      ∀ count fault, selectFrom text count language ≠ .error (.malformed fault)) ∧
    (∀ malformed, read text = .error malformed →
      ∃ first rest diagnostic position, (review text language).errors = first :: rest ∧
        Fault.ofMalformed malformed = .interval (.diagnostic diagnostic) first.content position ∧
        first.column = some (position + 1) ∧ first.message = diagnostic.message) ∧
    ∀ other, (review text other).errors = (review text language).errors := by
  have hvalid : (review text language).isValid ↔ ∃ message, read text = .ok message := by
    rw [← reviewErrors_eq_nil_iff, Report.isValid, List.isEmpty_iff]
    rfl
  refine ⟨segment_reviewErrors text, hvalid, ?_, ?_, fun other => rfl⟩
  · rw [hvalid]
    constructor
    · rintro ⟨message, hread⟩ count fault hselect
      rw [selectFrom_eq_malformed_iff, hread] at hselect
      cases hselect
    · intro h
      cases hread : read text with
      | error fault =>
        have hselect := (selectFrom_eq_malformed_iff text (.truth false) language fault).2 hread
        exact absurd hselect (h (.truth false) fault)
      | ok message => exact ⟨message, rfl⟩
  · intro malformed hread
    obtain ⟨index, rest, herrors⟩ := exists_reviewErrors_of_read hread
    exact ⟨malformedError malformed index, rest,
      Diagnostic.invalidInterval malformed.text malformed.position, malformed.position, herrors,
      rfl, rfl, rfl⟩

/-- Two segments are in error, and the first of these errors is the one of reading. -/
theorem review_agrees_with_read_brackets :
    (review "one|[1,2|]3" "en_US").errors.map Report.Error.segment = [some 1, some 2] ∧
      (review "one|[1,2|]3" "en_US").isValid = false ∧
      ∃ first rest, (review "one|[1,2|]3" "en_US").errors = first :: rest ∧
        first.content = "[1,2" ∧ first.column = some 5 := by
  obtain ⟨hsegments, -, hselect, hfirst, -⟩ := review_agrees_with_read "one|[1,2|]3" "en_US"
  have hread : read "one|[1,2|]3" = .error ⟨"[1,2", 4⟩ := rfl
  refine ⟨hsegments, ?_, ?_⟩
  · have hmalformed : selectFrom "one|[1,2|]3" (.integer 1) "en_US" =
        .error (.malformed ⟨"[1,2", 4⟩) := rfl
    by_contra hvalid
    exact hselect.1 (Bool.of_not_eq_false hvalid) _ _ hmalformed
  · obtain ⟨first, rest, diagnostic, position, herrors, hfault, hcolumn, -⟩ := hfirst _ hread
    simp only [Fault.ofMalformed, Fault.interval.injEq] at hfault
    obtain ⟨-, hcontent, hposition⟩ := hfault
    refine ⟨first, rest, herrors, hcontent.symm, ?_⟩
    rw [hcolumn, ← hposition]
    rfl

/-- A message that is read has a clause for each segment. -/
theorem read_eq_ok_iff {text : Text} {message : Message} :
    read text = .ok message ↔ message.source = text ∧
      List.Forall₂ (fun segment clause => Clause.read segment = .ok clause) (segments text)
        message.clauses := by
  obtain ⟨source, clauses⟩ := message
  rw [← mapM_eq_ok_iff, read]
  cases hread : (segments text).mapM Clause.read with
  | error fault => simp [Except.map]
  | ok found => simp [Except.map, eq_comm]

theorem source_of_read {text : Text} {message : Message} (h : read text = .ok message) :
    message.source = text :=
  (read_eq_ok_iff.1 h).1

theorem forall₂_of_read {text : Text} {message : Message} (h : read text = .ok message) :
    List.Forall₂ (fun segment clause => Clause.read segment = .ok clause) (segments text)
      message.clauses :=
  (read_eq_ok_iff.1 h).2

theorem exists_clause_of_read {text segment : Text} {message : Message} {index : Nat}
    (h : read text = .ok message) (hsegment : (segments text)[index]? = some segment) :
    ∃ clause, message.clauses[index]? = some clause ∧ Clause.read segment = .ok clause := by
  have hclauses := forall₂_of_read h
  obtain ⟨hindex, hget⟩ := List.getElem?_eq_some_iff.1 hsegment
  have hlength := hclauses.length_eq
  have hclause := hclauses.get hindex (hlength ▸ hindex)
  simp only [List.get_eq_getElem, hget] at hclause
  exact ⟨_, List.getElem?_eq_getElem (hlength ▸ hindex), hclause⟩

theorem length_clauses_of_read {text : Text} {message : Message} (h : read text = .ok message) :
    message.clauses.length = (segments text).length :=
  (forall₂_of_read h).length_eq.symm

/-- A review counts the standard clauses that reading finds. -/
theorem length_standard_of_read {text : Text} {message : Message} (h : read text = .ok message) :
    message.standard.length = standardCount text := by
  have hclauses := forall₂_of_read h
  unfold standard standardCount scans
  generalize segments text = segments at hclauses
  generalize message.clauses = clauses at hclauses
  induction hclauses with
  | nil => rfl
  | cons hclause _ ih =>
    rw [List.map_cons, List.countP_cons]
    rcases Clause.cases_of_read hclause with ⟨hscan, rfl⟩ | ⟨interval, cursor, hscan, rfl⟩
    · simp [hscan, ih]
    · simp [hscan, ih]

end Message
end Phrasebook
