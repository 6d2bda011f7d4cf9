import Mathlib.Order.Bounds.Defs
import Phrasebook.Proofs.Interval.Lookahead

/-!
Where the fault of a malformed interval is. What stands before it can go on to an interval, and so
can the number or the infinity that is begun there, but nothing longer. So the place of a fault is
the end of the longest beginning of the text that an interval could have, or the start of the
number or the infinity that is not finished there.
-/
namespace Phrasebook.Interval

open Text

def endsMember (c : Char) : Bool := c == ',' || c == '\x7d'

def endsRange (c : Char) : Bool := c == '[' || c == ']'

theorem isJoint_of_endsMember {c : Char} (h : endsMember c) : isJoint c := by
  simp only [endsMember, Bool.or_eq_true, beq_iff_eq] at h
  rcases h with rfl | rfl <;> decide

theorem isJoint_of_endsRange {c : Char} (h : endsRange c) : isJoint c := by
  simp only [endsRange, Bool.or_eq_true, beq_iff_eq] at h
  rcases h with rfl | rfl <;> decide

def membersBehind : Binary64 × Char × Text → Except Text (List Binary64 × Text)
  | (x, c, rest) =>
    if c = ',' then (members rest).map fun (xs, left) => (x :: xs, left) else .ok ([x], rest)

def rangeBehind (leftClosed : Bool) : Binary64 × Char × Text → Except Text (Shape × Text)
  | (left, _, rest) => bounds.upToJoint endsRange rest >>= fun (right, c, rest) =>
    .ok (.range left right leftClosed (c == ']'), rest)

theorem members_eq_upToJoint (text : Text) :
    members text = numbers.upToJoint endsMember text >>= membersBehind := by
  rw [members_eq]
  simp only [Reader.upToJoint, numbers]
  cases number? (trimLeft text) with
  | none => rfl
  | some found =>
    obtain ⟨x, after⟩ := found
    dsimp only
    cases trimLeft after with
    | nil => rfl
    | cons c rest =>
      by_cases hjoint : endsMember c
      · rw [Reader.atJoint_cons hjoint]
        simp only [endsMember, Bool.or_eq_true, beq_iff_eq] at hjoint
        rcases hjoint with rfl | rfl <;> rfl
      · rw [Reader.atJoint_cons_of_not (Bool.of_not_eq_true hjoint)]
        split
        next heq => exact absurd (List.cons.inj heq).1 (by rintro rfl; exact hjoint rfl)
        next heq => exact absurd (List.cons.inj heq).1 (by rintro rfl; exact hjoint rfl)
        next => rfl

theorem endpoint_bind_comma (text : Text) :
    (endpoint text >>= fun (x, after) => (comma after).map fun rest => (x, ',', rest)) =
      bounds.upToJoint (· == ',') text := by
  simp only [endpoint, Reader.upToJoint, bounds]
  cases endpoint? (trimLeft text) with
  | none => rfl
  | some found =>
    obtain ⟨x, after⟩ := found
    dsimp only [bind, Except.bind]
    cases trimLeft after with
    | nil => rfl
    | cons c rest =>
      by_cases hcomma : c = ','
      · subst hcomma
        rfl
      · rw [Reader.atJoint_cons_of_not (by simpa using hcomma)]
        simp [comma, hcomma, Except.map]

/-- The right end of a range is read as a bound up to its joint. -/
theorem endpoint_bind_closing (text : Text) :
    (endpoint text >>= fun (x, after) =>
      (closing after).map fun (closed, rest) => (x, rightBracket closed, rest)) =
      bounds.upToJoint endsRange text := by
  simp only [endpoint, Reader.upToJoint, bounds]
  cases endpoint? (trimLeft text) with
  | none => rfl
  | some found =>
    obtain ⟨x, after⟩ := found
    dsimp only [bind, Except.bind]
    cases trimLeft after with
    | nil => rfl
    | cons c rest =>
      by_cases hbracket : c = ']' ∨ c = '['
      · rcases hbracket with rfl | rfl <;> rfl
      · obtain ⟨hright, hleft⟩ := not_or.1 hbracket
        rw [Reader.atJoint_cons_of_not (by simp [endsRange, hright, hleft])]
        simp [closing, hright, hleft, Except.map]

theorem range_eq_upToJoint (leftClosed : Bool) (text : Text) :
    range leftClosed text = bounds.upToJoint (· == ',') text >>= rangeBehind leftClosed := by
  rw [← endpoint_bind_comma]
  unfold range rangeBehind
  simp only [← endpoint_bind_closing]
  cases endpoint text with
  | error left => rfl
  | ok found =>
    obtain ⟨left, afterLeft⟩ := found
    simp only [bind, Except.bind]
    cases comma afterLeft with
    | error left => rfl
    | ok afterComma =>
      simp only [Except.map]
      cases endpoint afterComma with
      | error left => rfl
      | ok found =>
        obtain ⟨right, afterRight⟩ := found
        dsimp only
        cases closing afterRight with
        | error left => rfl
        | ok found =>
          obtain ⟨rightClosed, rest⟩ := found
          cases rightClosed <;> rfl

theorem members_stopsAt {text left : Text} (h : members text = .error left) :
    StopsAt members text left := by
  have hmembers : members = fun text => numbers.upToJoint endsMember text >>= membersBehind :=
    funext members_eq_upToJoint
  induction hlength : text.length using Nat.strong_induction_on generalizing text left with
  | _ length ih =>
    rw [hmembers] at h ⊢
    refine numbers.stopsAt_bind (fun _ => isJoint_of_endsMember)
      ⟨'\x7d', [], rfl, fun _ => rfl⟩ ?_ h
    intro x c rest hread hbehind
    obtain ⟨before, rfl, -⟩ := numbers.exists_of_upToJoint hread
    by_cases hcomma : c = ','
    · subst hcomma
      have hrest : members rest = .error left := by
        simp only [membersBehind, if_true] at hbehind
        exact eq_error_of_map hbehind
      have hshorter : rest.length < length := by
        rw [← hlength, List.length_append, List.length_cons]
        omega
      have hstops := ih rest.length hshorter hrest rfl
      simpa only [membersBehind, if_true] using hstops.map fun (xs, left) => (x :: xs, left)
    · simp only [membersBehind, if_neg hcomma] at hbehind
      cases hbehind

theorem range_stopsAt {leftClosed : Bool} {text left : Text}
    (h : range leftClosed text = .error left) : StopsAt (range leftClosed) text left := by
  have hrange : range leftClosed =
      fun text => bounds.upToJoint (· == ',') text >>= rangeBehind leftClosed :=
    funext (range_eq_upToJoint leftClosed)
  have hcomma : ∀ c : Char, (c == ',') = true → isJoint c := by
    intro c hc
    obtain rfl := beq_iff_eq.1 hc
    decide
  rw [hrange] at h ⊢
  refine bounds.stopsAt_bind hcomma ⟨',', "Inf]", rfl, fun _ => rfl⟩ ?_ h
  intro x c rest _ hbehind
  refine bounds.stopsAt_bind (fun _ => isJoint_of_endsRange) ⟨']', [], rfl, fun _ => rfl⟩ ?_ hbehind
  intro y d behind _ herror
  cases herror

def isOpener (c : Char) : Bool := c == '\x7b' || c == '[' || c == ']'

def inside (opener : Char) (body : Text) : Except Text (Shape × Text) :=
  if opener = '\x7b' then (members body).map fun (values, rest) => (.members values, rest)
  else range (opener == '[') body

theorem opener_cases {opener : Char} (h : isOpener opener) :
    opener = '\x7b' ∨ ∃ closed, opener = leftBracket closed := by
  simp only [isOpener, Bool.or_eq_true, beq_iff_eq] at h
  rcases h with (rfl | rfl) | rfl
  · exact Or.inl rfl
  · exact Or.inr ⟨true, rfl⟩
  · exact Or.inr ⟨false, rfl⟩

theorem isJoint_of_isOpener {opener : Char} (h : isOpener opener) : isJoint opener := by
  rcases opener_cases h with rfl | ⟨closed, rfl⟩
  · decide
  · exact isJoint_leftBracket closed

theorem shapeAt_opener {opener : Char} (h : isOpener opener) (body : Text) :
    shapeAt (opener :: body) =
      if startsNumeric (trimLeft body) then (inside opener body).map some else .ok none := by
  have hmap : ∀ outcome : Except Text (List Binary64 × Text),
      (outcome.map fun (values, rest) => some (Shape.members values, rest)) =
        (outcome.map fun (values, rest) => (Shape.members values, rest)).map some := by
    intro outcome
    cases outcome <;> rfl
  rcases opener_cases h with rfl | ⟨closed, rfl⟩
  · simp only [shapeAt, inside, if_true, hmap]
  · cases closed <;> rfl

theorem shapeAt_of_not_isOpener {c : Char} (h : isOpener c = false) (rest : Text) :
    shapeAt (c :: rest) = .ok none := by
  simp only [isOpener, Bool.or_eq_false_iff, beq_eq_false_iff_ne] at h
  obtain ⟨⟨hbrace, hleft⟩, hright⟩ := h
  simp [shapeAt, hbrace, hleft, hright]

theorem inside_stopsAt {opener : Char} {body left : Text} (h : inside opener body = .error left) :
    StopsAt (inside opener) body left := by
  by_cases hbrace : opener = '\x7b'
  · subst hbrace
    have hinside : inside '\x7b' =
        fun body => (members body).map fun (values, rest) => (Shape.members values, rest) := by
      funext body
      exact if_pos rfl
    rw [hinside] at h ⊢
    exact (members_stopsAt (eq_error_of_map h)).map _
  · have hinside : inside opener = range (opener == '[') := by
      funext body
      exact if_neg hbrace
    rw [hinside] at h ⊢
    exact range_stopsAt h

/-- Reading succeeds behind an opening character if and only if an interval is written there. -/
theorem inside_isOk_iff {opener : Char} (h : isOpener opener) (body : Text) :
    (inside opener body).isOk ↔ ∃ (form : Form) (rest : Text), opener :: body = form.text ++ rest := by
  constructor
  · intro hok
    cases hinside : inside opener body with
    | error left =>
      rw [hinside] at hok
      cases hok
    | ok found =>
      obtain ⟨shape, rest⟩ := found
      rcases opener_cases h with rfl | ⟨closed, rfl⟩
      · rw [inside, if_pos rfl] at hinside
        obtain ⟨⟨values, left⟩, hmembers, -⟩ := exists_of_map_eq_ok hinside
        obtain ⟨first, others, rfl, -⟩ := exists_membersText_of_members hmembers
        exact ⟨.set first others, left, rfl⟩
      · have hrange : range closed body = .ok (shape, rest) := by
          cases closed <;> exact hinside
        obtain ⟨left, right, rightClosed, rfl, -⟩ := exists_endsText_of_range hrange
        exact ⟨.range closed left right rightClosed, rest, rfl⟩
  · rintro ⟨form, rest, hform⟩
    have hshape := shapeAt_text form rest
    rw [← hform, shapeAt_opener h] at hshape
    split at hshape
    · obtain ⟨found, hfound, -⟩ := exists_of_map_eq_ok hshape
      rw [hfound]
      rfl
    · cases hshape

theorem exists_of_shapeAt_error {text left : Text} (h : shapeAt text = .error left) :
    ∃ opener body, text = opener :: body ∧ isOpener opener ∧ inside opener body = .error left := by
  cases text with
  | nil => cases h
  | cons opener body =>
    by_cases hopener : isOpener opener
    · refine ⟨opener, body, rfl, hopener, ?_⟩
      rw [shapeAt_opener hopener] at h
      split at h
      · exact eq_error_of_map h
      · cases h
    · rw [shapeAt_of_not_isOpener (Bool.of_not_eq_true hopener)] at h
      cases h

/-- A text can go on so that it begins, white space apart, with an interval. -/
def Viable (text : Text) : Prop :=
  ∃ (more : Text) (before : Gap) (form : Form) (rest : Text),
    text ++ more = before.text ++ form.text ++ rest

theorem Viable.of_append {first last : Text} (h : Viable (first ++ last)) : Viable first := by
  obtain ⟨more, before, form, rest, htext⟩ := h
  exact ⟨last ++ more, before, form, rest, by rw [← htext, List.append_assoc]⟩

theorem viable_opener_iff (before : Gap) {opener : Char} (h : isOpener opener) (body : Text) :
    Viable (before.text ++ opener :: body) ↔ ∃ more, (inside opener (body ++ more)).isOk := by
  constructor
  · rintro ⟨more, before', form, rest, htext⟩
    refine ⟨more, (inside_isOk_iff h _).2 ⟨form, rest, ?_⟩⟩
    rw [← trimLeft_derivation before' form rest, ← htext, List.append_assoc, List.cons_append]
    exact (trimLeft_joint before (isJoint_of_isOpener h) (body ++ more)).symm
  · rintro ⟨more, hok⟩
    obtain ⟨form, rest, hform⟩ := (inside_isOk_iff h _).1 hok
    refine ⟨more, before, form, rest, ?_⟩
    rw [List.append_assoc, List.append_assoc, List.cons_append, hform]

/-- A fault is where the scanner stopped: what it read is viable together with what is begun
there, and nothing longer is. -/
theorem exists_stop_of_scan {segment : Text} {fault : Malformed}
    (h : scan segment = .error fault) :
    ∃ before begun behind, segment = before ++ begun ++ behind ∧
      fault = ⟨segment, before.length⟩ ∧ (begun = [] ∨ Unfinished Bound.text begun) ∧
      Viable (before ++ begun) ∧
      ∀ c tail, behind = c :: tail → ¬ Viable (before ++ begun ++ [c]) := by
  obtain ⟨gap, hgap⟩ := exists_gap segment
  have hshape : ∃ left, shapeAt (trimLeft segment) = .error left ∧
      fault = .leaving segment left := by
    unfold scan at h
    cases hshape : shapeAt (trimLeft segment) with
    | error left =>
      simp only [hshape, Except.error.injEq] at h
      exact ⟨left, rfl, h.symm⟩
    | ok found => cases found <;> simp [hshape] at h
  obtain ⟨left, hleft, rfl⟩ := hshape
  obtain ⟨opener, body, hbody, hopener, hinside⟩ := exists_of_shapeAt_error hleft
  rw [hbody] at hgap
  obtain ⟨before, begun, behind, rfl, rfl, hunfinished, hcomplete, hlost⟩ :=
    inside_stopsAt hinside
  have hbefore : ∀ text, gap.text ++ opener :: (before ++ begun ++ text) =
      (gap.text ++ opener :: before) ++ begun ++ text := by simp
  refine ⟨gap.text ++ opener :: before, begun, behind, ?_, ?_, hunfinished, ?_, ?_⟩
  · rw [← hbefore]
    exact hgap
  · rw [Malformed.leaving]
    congr 1
    rw [hgap]
    simp only [List.length_append, List.length_cons]
    omega
  · have hviable := (viable_opener_iff gap hopener (before ++ begun)).2 hcomplete
    simpa using hviable
  · rintro c tail rfl hviable
    have hbody : gap.text ++ opener :: before ++ begun ++ [c] =
        gap.text ++ opener :: (before ++ begun ++ [c]) := by simp
    rw [hbody, viable_opener_iff gap hopener] at hviable
    obtain ⟨more, hok⟩ := hviable
    have hfails := hlost c tail rfl more
    rw [List.append_assoc _ [c], List.singleton_append, hfails] at hok
    cases hok

/-- A viable text that is not with the next character is the longest viable beginning. -/
theorem isGreatest_viable {first behind : Text} (hviable : Viable first)
    (hlost : ∀ c tail, behind = c :: tail → ¬ Viable (first ++ [c])) :
    IsGreatest { n | n ≤ (first ++ behind).length ∧ Viable ((first ++ behind).take n) }
      first.length := by
  refine ⟨⟨by simp, by rwa [List.take_left]⟩, ?_⟩
  rintro n ⟨hn, hlonger⟩
  by_contra hlt
  obtain ⟨more, rfl⟩ := Nat.exists_eq_add_of_lt (Nat.not_le.1 hlt)
  cases behind with
  | nil =>
    rw [List.append_nil] at hn
    omega
  | cons c tail =>
    have htake : (first ++ c :: tail).take (first.length + more + 1) =
        (first ++ [c]) ++ tail.take more := by
      rw [Nat.add_assoc, List.take_length_add_append, List.take_succ_cons, List.append_assoc,
        List.singleton_append]
    rw [htake] at hlonger
    exact hlost c tail rfl hlonger.of_append

/-- The fault of a malformed segment is about the whole segment, and its place is in it. What is
before this place can go on to an interval. The longest beginning of the segment that can do so
ends there, or is longer by a number or an infinity that is begun there and not finished. -/
theorem fault_position_exact {segment : Text} {fault : Malformed}
    (h : scan segment = .error fault) :
    fault.text = segment ∧ fault.position ≤ segment.length ∧
    (∃ diagnostic span,
      Fault.ofMalformed fault = .interval (.diagnostic diagnostic) segment fault.position ∧
        diagnostic.span = some span ∧ span.start = fault.position ∧
          span.stop = segment.length) ∧
    Viable (segment.take fault.position) ∧
    ∃ viable, IsGreatest { n | n ≤ segment.length ∧ Viable (segment.take n) } viable ∧
      (fault.position = viable ∨
        Unfinished Bound.text ((segment.take viable).drop fault.position)) := by
  obtain ⟨before, begun, behind, rfl, rfl, hunfinished, hviable, hlost⟩ := exists_stop_of_scan h
  have hle : before.length ≤ (before ++ begun ++ behind).length := by
    rw [List.append_assoc, List.length_append]
    omega
  refine ⟨rfl, hle, ⟨_, _, rfl, rfl, rfl, Nat.max_eq_right hle⟩, ?_, (before ++ begun).length,
    isGreatest_viable hviable hlost, ?_⟩
  · rw [List.append_assoc, List.take_left]
    exact hviable.of_append
  · rw [List.take_left, List.drop_left]
    rcases hunfinished with rfl | hunfinished
    · exact Or.inl (by rw [List.append_nil])
    · exact Or.inr hunfinished

/-- Here an infinity is begun behind the comma. -/
theorem fault_position_exact_infinity :
    scan "\t]1.5, -In[ many" = .error ⟨"\t]1.5, -In[ many", 7⟩ ∧
      Viable "\t]1.5, " ∧
      ∃ viable, IsGreatest { n | n ≤ 16 ∧ Viable (("\t]1.5, -In[ many" : Text).take n) } viable ∧
        (7 = viable ∨
          Unfinished Bound.text ((("\t]1.5, -In[ many" : Text).take viable).drop 7)) := by
  have hscan : scan "\t]1.5, -In[ many" = .error ⟨"\t]1.5, -In[ many", 7⟩ := rfl
  obtain ⟨-, -, -, hviable, hgreatest⟩ := fault_position_exact hscan
  exact ⟨hscan, hviable, hgreatest⟩

end Phrasebook.Interval
