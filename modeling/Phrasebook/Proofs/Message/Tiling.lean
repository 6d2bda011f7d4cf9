import Phrasebook.Proofs.Interval.Order
import Phrasebook.Proofs.Message.Truncation
import Phrasebook.Proofs.Message.Writing

/-!
Ranges that are cut out of the whole line leave no gap and have no overlap. Each cut is an end of
two ranges and is included in one of them, so a count that is not past a cut is in none of the
ranges behind it, and one that is past it is in none before. This holds for cuts at one place, for
cuts that are read as infinities, and for infinite counts. So a message of such ranges has one
clause for each count, wherever it stands in the message.
-/
namespace Phrasebook

namespace Interval

theorem Literal.point_value_ne (literal : Literal) : literal.value.point ≠ .undefined := by
  unfold value
  split <;> apply Binary64.point_ofScientific_ne

/-- A range up to a cut holds what is past its left end and not past the cut. -/
theorem contains_range_cut (leftClosed closed : Bool) (left : Bound) (cut : Literal)
    {place : Point} (hplace : place ≠ .undefined) :
    (Shape.range left.value (Bound.number cut).value leftClosed (!closed)).contains place =
      (left.value.point.past leftClosed place && !cut.value.point.past closed place) := by
  rw [contains_range (show (Bound.number cut).value.point ≠ .undefined from cut.point_value_ne)
    leftClosed (!closed) hplace, Bool.not_not]
  rfl

/-- The last range holds all that is past its left end. -/
theorem contains_range_rest (leftClosed : Bool) (left : Bound) {place : Point}
    (hplace : place ≠ .undefined) :
    (Shape.range left.value (Bound.positiveInfinity true).value leftClosed true).contains place =
      left.value.point.past leftClosed place := by
  have hinfinite : Point.posInfinity.past false place = false := by
    cases place <;> simp_all [Point.past, Point.lt, Point.le]
  rw [contains_range (by simp [Bound.value, Binary64.point]) leftClosed true hplace]
  show (_ && !Point.posInfinity.past false place) = _
  rw [hinfinite, Bool.not_false, Bool.and_true]

end Interval

namespace Message

open Phrasebook.Interval (Literal Bound)

def tileRange (leftClosed : Bool) (left right : Bound) (rightClosed : Bool) : Interval.Form :=
  .range leftClosed ⟨.empty, left, .empty⟩ ⟨.empty, right, .empty⟩ rightClosed

def tile (leftClosed : Bool) (left right : Bound) (rightClosed : Bool) (text : Display) :
    Clause.Form :=
  .explicit (tileRange leftClosed left right rightClosed) .space text

/-- The clauses from a left end on: one up to each cut, and one for the rest. A cut is included in
the range behind it or, if not, in the range before it. -/
def tilesFrom (closed leftClosed : Bool) (left : Bound) (text : Display) :
    List (Literal × Display) → List Clause.Form
  | [] => [tile leftClosed left (.positiveInfinity true) true text]
  | (cut, next) :: cuts =>
    tile leftClosed left (.number cut) (!closed) text ::
      tilesFrom closed closed (.number cut) next cuts

/-- The clauses for the whole line, cut at some numbers. Each cut has the text that begins there. -/
def tiles (closed : Bool) (text : Display) (cuts : List (Literal × Display)) :
    List Clause.Form :=
  tilesFrom closed true .negativeInfinity text cuts

def InOrder (cuts : List (Literal × Display)) : Prop :=
  cuts.IsChain fun a b => a.1.value.point.le b.1.value.point = true

def covering (place : Point) (forms : List Clause.Form) : List (Interval × Text) :=
  (forms.filterMap Clause.Form.explicit?).filter fun clause => clause.1.shape.contains place

variable {closed leftClosed : Bool} {left : Bound} {text : Display} {place : Point}

section Tile

variable {right : Bound} {rightClosed : Bool} (forms : List Clause.Form)

theorem covering_tile_cons (h : (Interval.Shape.range left.value right.value leftClosed
    rightClosed).contains place = true) :
    covering place (tile leftClosed left right rightClosed text :: forms) =
      ((tileRange leftClosed left right rightClosed).interval, text.text) ::
        covering place forms :=
  List.filter_cons_of_pos h

theorem covering_tile_cons_of_not (h : (Interval.Shape.range left.value right.value leftClosed
    rightClosed).contains place = false) :
    covering place (tile leftClosed left right rightClosed text :: forms) =
      covering place forms :=
  List.filter_cons_of_neg (Bool.eq_false_iff.1 h)

end Tile

/-- What is not past a cut is in no range behind it. -/
theorem covering_tilesFrom_eq_nil (hplace : place ≠ .undefined) {cut : Literal}
    {cuts : List (Literal × Display)} (horder : InOrder ((cut, text) :: cuts))
    (hpast : (Bound.number cut).value.point.past closed place = false) :
    covering place (tilesFrom closed closed (.number cut) text cuts) = [] := by
  induction cuts generalizing cut text with
  | nil =>
    have hout := Interval.contains_range_rest closed (.number cut) hplace
    rw [hpast] at hout
    exact covering_tile_cons_of_not [] hout
  | cons next cuts ih =>
    obtain ⟨next, later⟩ := next
    obtain ⟨hle, horder⟩ := List.isChain_cons_cons.1 horder
    have hout := Interval.contains_range_cut closed closed (.number cut) next hplace
    rw [hpast, Bool.false_and] at hout
    have hnext : next.value.point.past closed place = false := by
      by_contra h
      rw [Bool.not_eq_false] at h
      exact Bool.eq_false_iff.1 hpast
        (Point.past_anti cut.point_value_ne next.point_value_ne hplace hle h)
    rw [tilesFrom, covering_tile_cons_of_not _ hout]
    exact ih horder hnext

/-- What is past the left end is in exactly one range. -/
theorem covering_tilesFrom (hplace : place ≠ .undefined) {cuts : List (Literal × Display)}
    (horder : InOrder cuts) (hpast : left.value.point.past leftClosed place = true) :
    ∃ clause, covering place (tilesFrom closed leftClosed left text cuts) = [clause] := by
  induction cuts generalizing leftClosed left text with
  | nil =>
    have hin := Interval.contains_range_rest leftClosed left hplace
    rw [hpast] at hin
    exact ⟨_, covering_tile_cons [] hin⟩
  | cons cut cuts ih =>
    obtain ⟨cut, next⟩ := cut
    have hrange := Interval.contains_range_cut leftClosed closed left cut hplace
    rw [hpast, Bool.true_and] at hrange
    cases hcut : cut.value.point.past closed place with
    | true =>
      rw [hcut] at hrange
      rw [tilesFrom, covering_tile_cons_of_not _ hrange]
      exact ih horder.of_cons hcut
    | false =>
      rw [hcut] at hrange
      rw [tilesFrom, covering_tile_cons _ hrange,
        covering_tilesFrom_eq_nil hplace horder hcut]
      exact ⟨_, rfl⟩

theorem covering_tiles (closed : Bool) (text : Display) (hplace : place ≠ .undefined)
    {cuts : List (Literal × Display)} (horder : InOrder cuts) :
    ∃ clause, covering place (tiles closed text cuts) = [clause] := by
  have hpast : Point.negInfinity.past true place = true := by
    cases place <;> simp_all [Point.past, Point.le]
  exact covering_tilesFrom hplace horder hpast

theorem tiles_ne_nil (closed : Bool) (text : Display) (cuts : List (Literal × Display)) :
    tiles closed text cuts ≠ [] := by
  cases cuts <;> exact List.cons_ne_nil _ _

theorem standard?_of_mem_tilesFrom {cuts : List (Literal × Display)} {form : Clause.Form}
    (h : form ∈ tilesFrom closed leftClosed left text cuts) : form.standard? = none := by
  induction cuts generalizing leftClosed left text with
  | nil =>
    obtain rfl := List.mem_singleton.1 h
    rfl
  | cons cut cuts ih =>
    rcases List.mem_cons.1 h with rfl | hlater
    · rfl
    · exact ih hlater

/-- Of the clauses in any order, the same one holds a place. -/
theorem covering_perm {forms other : List Clause.Form} (h : forms.Perm other)
    {clause : Interval × Text} (hcovering : covering place other = [clause]) :
    covering place forms = [clause] := by
  have hperm : (covering place forms).Perm [clause] := by
    rw [← hcovering]
    exact (h.filterMap _).filter _
  exact List.perm_singleton.1 hperm

/-- The clause that alone holds the place of a count is chosen for it, in every language. -/
theorem selectFrom_of_covering {clauses : List (Spaced Clause.Form)} (hne : clauses ≠ [])
    {count : Number} (hplace : count.place = .ok place) {interval : Interval} {found : Text}
    (hcovering : covering place (clauses.map (·.item)) = [(interval, found)]) (language : Text) :
    selectFrom (write clauses) count language = .ok (.explicit interval found) := by
  refine selectFrom_of_find? (read_write_eq hne) hplace ?_ language
  rw [covering, List.filterMap_map] at hcovering
  rw [explicit_clauses, ← List.head?_filter]
  exact congrArg List.head? hcovering

/-- Every count but NaN is in exactly one of the ranges that the line is cut into. The clause of
this range is chosen, in whatever order the clauses are written and for every language. -/
theorem select_tiles (closed : Bool) (text : Display) {cuts : List (Literal × Display)}
    (horder : InOrder cuts) {count : Number} (hcount : count.quantity.isNan = false) :
    ∃ whole interval found, count.whole = .ok whole ∧
      ∀ clauses : List (Spaced Clause.Form),
        (clauses.map (·.item)).Perm (tiles closed text cuts) →
          (∃ message, read (write clauses) = .ok message ∧ message.standard = [] ∧
            message.explicit.filter (fun clause => clause.1.contains whole = .ok true) =
              [(interval, found)]) ∧
          ∀ language, selectFrom (write clauses) count language =
            .ok (.explicit interval found) := by
  obtain ⟨whole, place, hwhole, hpoint, hdefined⟩ := Number.exists_whole_place hcount
  have hplace : count.place = .ok place := by
    rw [Number.place, hwhole]
    exact hpoint
  obtain ⟨⟨interval, found⟩, htiles⟩ := covering_tiles closed text hdefined horder
  refine ⟨whole, interval, found, hwhole, fun clauses hperm => ?_⟩
  have hne : clauses ≠ [] := by
    rintro rfl
    exact tiles_ne_nil closed text cuts hperm.nil_eq.symm
  have hcovering := covering_perm hperm htiles
  refine ⟨⟨_, read_write_eq hne, ?_, ?_⟩, selectFrom_of_covering hne hplace hcovering⟩
  · rw [standard_clauses, List.filterMap_eq_nil_iff]
    intro spaced hmem
    exact standard?_of_mem_tilesFrom (hperm.mem_iff.1 (List.mem_map_of_mem hmem))
  · have hcontains : ∀ clause : Interval × Text,
        clause.1.contains whole = .ok (clause.1.shape.contains place) := by
      intro clause
      rw [Interval.contains, hpoint]
      rfl
    rw [explicit_clauses]
    rw [covering, List.filterMap_map] at hcovering
    simpa [hcontains] using hcovering

def scaleCuts : List (Literal × Display) :=
  let digits (text : Text) (hne : text ≠ []) (h : text.all Char.isDigit) : Interval.Digits :=
    ⟨text, hne, List.all_eq_true.1 h⟩
  [(⟨true, digits "1" (by decide) rfl, none⟩, ⟨"mild", by decide, rfl⟩),
    (⟨false, digits "20" (by decide) rfl, some (digits "40" (by decide) rfl)⟩,
      ⟨"never", by decide, rfl⟩),
    (⟨false, digits "20" (by decide) rfl, some (digits "4" (by decide) rfl)⟩,
      ⟨"warm", by decide, rfl⟩)]

def scaleText : Display := ⟨"cold", by decide, rfl⟩

def scaleForms : List Clause.Form := tiles true scaleText scaleCuts

/-- The clauses are written in their order, and the other way round. The count is at a cut, and its
whole part before it. -/
theorem select_tiles_scale :
    ∃ interval found, ∀ language,
      selectFrom "[-Inf,-1[ cold|[-1,20.40[ mild|[20.40,20.4[ never|[20.4,+Inf] warm"
          (.decimal (.finite false 204 (-1))) language = .ok (.explicit interval found) ∧
        selectFrom "[20.4,+Inf] warm|[20.40,20.4[ never|[-1,20.40[ mild|[-Inf,-1[ cold"
          (.decimal (.finite false 204 (-1))) language = .ok (.explicit interval found) := by
  have horder : InOrder scaleCuts := by
    unfold InOrder
    decide +kernel
  obtain ⟨whole, interval, found, -, hselect⟩ := select_tiles true scaleText horder
    (show (Number.decimal (.finite false 204 (-1))).quantity.isNan = false by decide +kernel)
  let unspaced (form : Clause.Form) : Spaced Clause.Form := ⟨.empty, form, .empty⟩
  have hwritten : write (scaleForms.map unspaced) =
      "[-Inf,-1[ cold|[-1,20.40[ mild|[20.40,20.4[ never|[20.4,+Inf] warm" := by decide +kernel
  have hreversed : write (scaleForms.reverse.map unspaced) =
      "[20.4,+Inf] warm|[20.40,20.4[ never|[-1,20.40[ mild|[-Inf,-1[ cold" := by decide +kernel
  refine ⟨interval, found, fun language => ⟨?_, ?_⟩⟩
  · rw [← hwritten]
    exact (hselect (scaleForms.map unspaced) (List.Perm.refl scaleForms)).2 language
  · rw [← hreversed]
    exact (hselect (scaleForms.reverse.map unspaced) (List.reverse_perm scaleForms)).2 language

end Message
end Phrasebook
