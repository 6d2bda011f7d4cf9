import Phrasebook.Fault
import Phrasebook.Proofs.Interval.Writing

/-!
The scanner reads exactly the intervals that can be written. Each of its steps is compared with
what it reads: what was written is read back whatever follows it, and what is read was written at
the start of the text.
-/
namespace Phrasebook

section Outcomes

variable {ε α β : Type} {outcome : Except ε α} {b : β}

theorem exists_of_bind_eq_ok {next : α → Except ε β} (h : outcome >>= next = .ok b) :
    ∃ a, outcome = .ok a ∧ next a = .ok b := by
  cases outcome with
  | error e => cases h
  | ok a => exact ⟨a, rfl, h⟩

theorem exists_of_map_eq_ok {f : α → β} (h : outcome.map f = .ok b) :
    ∃ a, outcome = .ok a ∧ f a = b := by
  cases outcome with
  | error e => cases h
  | ok a => exact ⟨a, rfl, Except.ok.inj h⟩

theorem eq_error_of_map {e : ε} {f : α → β} (h : outcome.map f = .error e) :
    outcome = .error e := by
  cases outcome with
  | error other => rw [Except.error.inj h]
  | ok a => cases h

end Outcomes

namespace Interval

open Text

theorem unsigned?_unsignedText (literal : Literal) {rest : Text}
    (hrest : StartsWithout literal.goesOn rest) :
    unsigned? literal.negative (literal.unsignedText ++ rest) = some (literal.value, rest) := by
  unfold Literal.goesOn at hrest
  unfold unsigned? Literal.unsignedText Literal.value
  cases hfraction : literal.fraction with
  | none =>
    simp only [hfraction] at hrest
    have hdigit := startsWithout_isDigit hrest
    simp only [takeWhile_run literal.whole.isDigit hdigit,
      dropWhile_run literal.whole.isDigit hdigit, if_neg literal.whole.ne_nil]
    split
    · exact absurd hrest (not_startsWithout_point _)
    · rfl
  | some fraction =>
    simp only [hfraction] at hrest
    simp only [List.append_assoc, List.cons_append,
      takeWhile_run literal.whole.isDigit (startsWithout_point _),
      dropWhile_run literal.whole.isDigit (startsWithout_point _), if_neg literal.whole.ne_nil,
      takeWhile_run fraction.isDigit hrest, dropWhile_run fraction.isDigit hrest,
      if_neg fraction.ne_nil]

theorem number?_text (literal : Literal) {rest : Text}
    (hrest : StartsWithout literal.goesOn rest) :
    number? (literal.text ++ rest) = some (literal.value, rest) := by
  have hunsigned := unsigned?_unsignedText literal hrest
  unfold Literal.text
  cases hnegative : literal.negative with
  | true =>
    rw [hnegative] at hunsigned
    exact hunsigned
  | false =>
    rw [hnegative] at hunsigned
    obtain ⟨c, after, hcons, hdigit⟩ := literal.exists_unsignedText
    have hminus : c ≠ '-' := ne_of_kind hdigit (by decide)
    simp only [Bool.false_eq_true, if_false]
    rw [hcons] at hunsigned ⊢
    simpa [number?, hminus] using hunsigned

/-- A number is read to its end: what follows it does not go on with it. -/
theorem exists_literal_of_unsigned? {negative : Bool} {text rest : Text} {x : Binary64}
    (h : unsigned? negative text = some (x, rest)) :
    ∃ literal : Literal, literal.negative = negative ∧ text = literal.unsignedText ++ rest ∧
      x = literal.value ∧ StartsWithout literal.goesOn rest := by
  have htext : text = text.takeWhile Char.isDigit ++ text.dropWhile Char.isDigit :=
    List.takeWhile_append_dropWhile.symm
  have hbehind := startsWithout_dropWhile Char.isDigit text
  unfold unsigned? at h
  dsimp only at h
  split at h
  · cases h
  next hwhole =>
    let whole : Digits := ⟨_, hwhole, fun _ => List.mem_takeWhile_imp⟩
    split at h
    next after hpoint =>
      split at h
      · cases h
      next hfraction =>
        let fraction : Digits := ⟨_, hfraction, fun _ => List.mem_takeWhile_imp⟩
        obtain ⟨hx, rfl⟩ := Prod.mk.inj (Option.some.inj h)
        have hafter : after = fraction.text ++ after.dropWhile Char.isDigit :=
          List.takeWhile_append_dropWhile.symm
        refine ⟨⟨negative, whole, some fraction⟩, rfl, ?_, hx.symm,
          startsWithout_dropWhile Char.isDigit after⟩
        rw [hpoint, hafter] at htext
        simpa [Literal.unsignedText] using htext
    next hpoint =>
      obtain ⟨hx, hrest⟩ := Prod.mk.inj (Option.some.inj h)
      rw [hrest] at htext hbehind hpoint
      refine ⟨⟨negative, whole, none⟩, rfl, htext, hx.symm, ?_⟩
      intro c hc
      have hdigit : c.isDigit = false := hbehind c hc
      have hpoint : c ≠ '.' := by
        rintro rfl
        obtain ⟨after, rfl⟩ := List.head?_eq_some_iff.1 (Option.mem_def.1 hc)
        exact hpoint after rfl
      simp [Literal.goesOn, isNumeric, hdigit, hpoint]

/-- What is read as a number is one in writing, with its end where it cannot go on. -/
theorem exists_literal_of_number? {text rest : Text} {x : Binary64}
    (h : number? text = some (x, rest)) :
    ∃ literal : Literal, text = literal.text ++ rest ∧ x = literal.value ∧
      StartsWithout literal.goesOn rest := by
  unfold number? at h
  split at h
  next after =>
    obtain ⟨literal, hnegative, rfl, hx, hrest⟩ := exists_literal_of_unsigned? h
    exact ⟨literal, by simp [Literal.text, hnegative], hx, hrest⟩
  next =>
    obtain ⟨literal, hnegative, rfl, hx, hrest⟩ := exists_literal_of_unsigned? h
    exact ⟨literal, by simp [Literal.text, hnegative], hx, hrest⟩

theorem endpoint?_text (bound : Bound) {rest : Text} (hrest : StartsWithout bound.goesOn rest) :
    endpoint? (bound.text ++ rest) = some (bound.value, rest) := by
  rw [endpoint?, bound.infinity?_text]
  cases bound with
  | number literal => exact number?_text literal hrest
  | negativeInfinity => rfl
  | positiveInfinity signed => rfl

theorem exists_bound_of_endpoint? {text rest : Text} {x : Binary64}
    (h : endpoint? text = some (x, rest)) :
    ∃ bound : Bound, text = bound.text ++ rest ∧ x = bound.value ∧
      StartsWithout bound.goesOn rest := by
  have hends : StartsWithout (fun _ => false) rest := fun _ _ => rfl
  unfold endpoint? at h
  cases hinfinity : infinity? text with
  | none =>
    rw [hinfinity] at h
    obtain ⟨literal, htext, hx, hrest⟩ := exists_literal_of_number? h
    exact ⟨.number literal, htext, hx, hrest⟩
  | some found =>
    rw [hinfinity] at h
    obtain rfl : found = (x, rest) := Option.some.inj h
    unfold infinity? at hinfinity
    split at hinfinity
    · cases hinfinity
      exact ⟨.negativeInfinity, rfl, rfl, hends⟩
    · cases hinfinity
      exact ⟨.positiveInfinity true, rfl, rfl, hends⟩
    · cases hinfinity
      exact ⟨.positiveInfinity false, rfl, rfl, hends⟩
    · cases hinfinity

theorem startsNumeric_literal (literal : Literal) (rest : Text) :
    startsNumeric (literal.text ++ rest) := by
  obtain ⟨c, after, hcons, hdigit⟩ := literal.exists_unsignedText
  unfold Literal.text
  split
  · simp [hcons, startsNumeric, hdigit]
  · have hminus : c ≠ '-' := by
      rintro rfl
      exact absurd hdigit (by decide)
    simp [hcons, startsNumeric, hdigit, hminus]

theorem startsNumeric_bound (bound : Bound) (rest : Text) :
    startsNumeric (bound.text ++ rest) := by
  cases bound with
  | number literal => exact startsNumeric_literal literal rest
  | negativeInfinity => rfl
  | positiveInfinity signed => cases signed <;> rfl

section Spaced

variable {α : Type} {write : α → Text}

theorem Readable.trimLeft_spaced (hwrite : Readable write) (spaced : Spaced α) (rest : Text) :
    trimLeft (spaced.text write ++ rest) = write spaced.item ++ (spaced.after.text ++ rest) := by
  rw [Spaced.text, List.append_assoc, List.append_assoc, trimLeft_gap]
  exact dropWhile_of_startsWithout (hwrite.startsWithout_isBlank _ _)

theorem trimLeft_joint (gap : Gap) {c : Char} (hc : isJoint c) (rest : Text) :
    trimLeft (gap.text ++ c :: rest) = c :: rest := by
  rw [trimLeft_gap]
  exact dropWhile_of_startsWithout (startsWithout_of_isJoint hc rest).1

theorem startsWithout_gap_joint (gap : Gap) {c : Char} (hc : isJoint c) (rest : Text) :
    StartsWithout isNumeric (gap.text ++ c :: rest) :=
  startsWithout_gap gap (startsWithout_of_isJoint hc rest).2

end Spaced

/-- Numbers are read until a brace closes the set or something else is met. -/
theorem members_eq (text : Text) :
    members text =
      match number? (trimLeft text) with
      | none => .error (trimLeft text)
      | some (x, afterNumber) =>
        match trimLeft afterNumber with
        | '\x7d' :: rest => .ok ([x], rest)
        | ',' :: rest => (members rest).map fun (xs, left) => (x :: xs, left)
        | stuck => .error stuck := by
  rw [members]
  cases number? (trimLeft text) with
  | none => rfl
  | some found =>
    dsimp only
    split <;> next hjoint => simp only [hjoint]

/-- Reading a number of a set, up to the joint behind it. -/
theorem number?_spaced (spaced : Spaced Literal) {c : Char} (hc : isJoint c) (rest : Text) :
    number? (trimLeft (spaced.text Literal.text ++ c :: rest)) =
      some (spaced.item.value, spaced.after.text ++ c :: rest) := by
  rw [Literal.readable.trimLeft_spaced]
  exact number?_text _ ((startsWithout_gap_joint spaced.after hc rest).mono fun _ =>
    Literal.isNumeric_of_goesOn)

/-- The numbers of a set are read as they are written. -/
theorem members_membersText (first : Spaced Literal) (others : List (Spaced Literal))
    (rest : Text) :
    members (membersText first others ++ rest) =
      .ok ((first :: others).map (·.item.value), rest) := by
  have hcomma : isJoint ',' := by decide
  have hbrace : isJoint '\x7d' := by decide
  induction others generalizing first with
  | nil =>
    rw [membersText_nil, List.append_assoc, List.cons_append, List.nil_append, members_eq,
      number?_spaced first hbrace]
    simp only [trimLeft_joint first.after hbrace, List.map_cons, List.map_nil]
  | cons next others ih =>
    rw [membersText_cons, List.append_assoc, List.cons_append, members_eq,
      number?_spaced first hcomma]
    simp only [trimLeft_joint first.after hcomma, ih next]
    rfl

/-- What was read where white space may come first was written with it. -/
theorem exists_spaced {α : Type} {write : α → Text} {text after : Text} {a : α}
    (htext : trimLeft text = write a ++ after) :
    ∃ spaced : Spaced α, spaced.item = a ∧ text = spaced.text write ++ trimLeft after := by
  obtain ⟨before, hbefore⟩ := exists_gap text
  obtain ⟨behind, hbehind⟩ := exists_gap after
  refine ⟨⟨before, a, behind⟩, rfl, ?_⟩
  conv => lhs; rw [hbefore, htext, hbehind]
  simp [Spaced.text]

/-- What is read as the numbers of a set is written like them. -/
theorem exists_membersText_of_members {text rest : Text} {xs : List Binary64}
    (h : members text = .ok (xs, rest)) :
    ∃ first others, text = membersText first others ++ rest ∧
      xs = (first :: others).map (·.item.value) := by
  induction text using members.induct generalizing xs with
  | case1 text hnone =>
    rw [members_eq, hnone] at h
    cases h
  | case2 text x afterNumber hnumber after hjoint =>
    rw [members_eq, hnumber] at h
    simp only [hjoint, Except.ok.injEq, Prod.mk.injEq] at h
    obtain ⟨rfl, rfl⟩ := h
    obtain ⟨literal, htext, rfl, -⟩ := exists_literal_of_number? hnumber
    obtain ⟨first, rfl, hfirst⟩ := exists_spaced htext
    refine ⟨first, [], ?_, rfl⟩
    rw [hfirst, hjoint, membersText_nil, List.append_assoc, List.cons_append, List.nil_append]
  | case3 text x afterNumber hnumber after hjoint ih =>
    rw [members_eq, hnumber] at h
    simp only [hjoint] at h
    obtain ⟨⟨ys, left⟩, hrest, hpair⟩ := exists_of_map_eq_ok h
    obtain ⟨rfl, rfl⟩ := Prod.mk.inj hpair
    obtain ⟨literal, htext, rfl, -⟩ := exists_literal_of_number? hnumber
    obtain ⟨first, rfl, hfirst⟩ := exists_spaced htext
    obtain ⟨next, others, hafter, rfl⟩ := ih hrest
    refine ⟨first, next :: others, ?_, rfl⟩
    rw [hfirst, hjoint, hafter, membersText_cons, List.append_assoc, List.cons_append]
  | case4 text x afterNumber hnumber hbrace hcomma =>
    rw [members_eq, hnumber] at h
    dsimp only at h
    split at h
    next hjoint => exact absurd hjoint (hbrace _)
    next hjoint => exact absurd hjoint (hcomma _)
    next => cases h

theorem endpoint_spaced (spaced : Spaced Bound) {c : Char} (hc : isJoint c) (rest : Text) :
    endpoint (spaced.text Bound.text ++ c :: rest) = .ok (spaced.item.value, c :: rest) := by
  rw [endpoint, Bound.readable.trimLeft_spaced,
    endpoint?_text _ ((startsWithout_gap_joint spaced.after hc rest).mono fun _ =>
      Bound.isNumeric_of_goesOn)]
  simp only [trimLeft_joint spaced.after hc]

theorem exists_spaced_of_endpoint {text rest : Text} {x : Binary64}
    (h : endpoint text = .ok (x, rest)) :
    ∃ spaced : Spaced Bound, text = spaced.text Bound.text ++ rest ∧ x = spaced.item.value := by
  unfold endpoint at h
  cases hbound : endpoint? (trimLeft text) with
  | none =>
    rw [hbound] at h
    cases h
  | some found =>
    obtain ⟨y, after⟩ := found
    rw [hbound] at h
    obtain ⟨rfl, rfl⟩ := Prod.mk.inj (Except.ok.inj h)
    obtain ⟨bound, htext, rfl, -⟩ := exists_bound_of_endpoint? hbound
    obtain ⟨spaced, rfl, hspaced⟩ := exists_spaced htext
    exact ⟨spaced, hspaced, rfl⟩

theorem closing_rightBracket (closed : Bool) (rest : Text) :
    closing (rightBracket closed :: rest) = .ok (closed, rest) := by
  cases closed <;> rfl

theorem eq_of_comma {text rest : Text} (h : comma text = .ok rest) : text = ',' :: rest := by
  unfold comma at h
  split at h
  · rw [Except.ok.inj h]
  · cases h

theorem eq_of_closing {text rest : Text} {closed : Bool} (h : closing text = .ok (closed, rest)) :
    text = rightBracket closed :: rest := by
  unfold closing at h
  split at h
  · obtain ⟨rfl, rfl⟩ := Prod.mk.inj (Except.ok.inj h)
    rfl
  · obtain ⟨rfl, rfl⟩ := Prod.mk.inj (Except.ok.inj h)
    rfl
  · cases h

/-- The ends of a range are read as they are written. -/
theorem range_endsText (leftClosed : Bool) (left right : Spaced Bound) (rightClosed : Bool)
    (rest : Text) :
    range leftClosed (endsText left right rightClosed ++ rest) =
      .ok (.range left.item.value right.item.value leftClosed rightClosed, rest) := by
  have hcomma : isJoint ',' := by decide
  have hright := isJoint_rightBracket rightClosed
  simp only [endsText, List.append_assoc, List.cons_append, List.nil_append]
  simp only [range, endpoint_spaced _ hcomma, endpoint_spaced _ hright, comma,
    closing_rightBracket, bind, Except.bind]
  rfl

/-- What is read as the ends of a range is written like them. -/
theorem exists_endsText_of_range {leftClosed : Bool} {text rest : Text} {shape : Shape}
    (h : range leftClosed text = .ok (shape, rest)) :
    ∃ left right rightClosed, text = endsText left right rightClosed ++ rest ∧
      shape = .range left.item.value right.item.value leftClosed rightClosed := by
  unfold range at h
  obtain ⟨⟨x, afterLeft⟩, hleft, h⟩ := exists_of_bind_eq_ok h
  obtain ⟨afterComma, hcomma, h⟩ := exists_of_bind_eq_ok h
  obtain ⟨⟨y, afterRight⟩, hright, h⟩ := exists_of_bind_eq_ok h
  obtain ⟨⟨rightClosed, after⟩, hclosing, h⟩ := exists_of_bind_eq_ok h
  obtain ⟨rfl, rfl⟩ := Prod.mk.inj (Except.ok.inj h)
  obtain ⟨left, rfl, rfl⟩ := exists_spaced_of_endpoint hleft
  obtain rfl := eq_of_comma hcomma
  obtain ⟨right, rfl, rfl⟩ := exists_spaced_of_endpoint hright
  obtain rfl := eq_of_closing hclosing
  exact ⟨left, right, rightClosed, by simp [endsText], rfl⟩

theorem startsNumeric_membersText (first : Spaced Literal) (others : List (Spaced Literal))
    (rest : Text) : startsNumeric (trimLeft (membersText first others ++ rest)) := by
  rw [membersText, List.append_assoc, List.append_assoc, Literal.readable.trimLeft_spaced]
  exact startsNumeric_literal _ _

theorem startsNumeric_endsText (left right : Spaced Bound) (rightClosed : Bool) (rest : Text) :
    startsNumeric (trimLeft (endsText left right rightClosed ++ rest)) := by
  rw [endsText, List.append_assoc, Bound.readable.trimLeft_spaced]
  exact startsNumeric_bound _ _

/-- A written interval is read back, whatever follows it. -/
theorem shapeAt_text (form : Form) (rest : Text) :
    shapeAt (form.text ++ rest) = .ok (some (form.shape, rest)) := by
  cases form with
  | set first others =>
    simp only [Form.text, List.cons_append, shapeAt, startsNumeric_membersText, if_true,
      members_membersText]
    rfl
  | range leftClosed left right rightClosed =>
    cases leftClosed with
    | false =>
      simp only [Form.text, leftBracket, Bool.false_eq_true, if_false, List.cons_append, shapeAt,
        startsNumeric_endsText, if_true, range_endsText]
      rfl
    | true =>
      simp only [Form.text, leftBracket, List.cons_append, shapeAt, startsNumeric_endsText,
        if_true, range_endsText]
      rfl

/-- What is read at the start of a text was written there. -/
theorem exists_form_of_shapeAt {text rest : Text} {shape : Shape}
    (h : shapeAt text = .ok (some (shape, rest))) :
    ∃ form : Form, text = form.text ++ rest ∧ shape = form.shape := by
  have hrange : ∀ {leftClosed body},
      (range leftClosed body).map some = .ok (some (shape, rest)) →
        ∃ form : Form, leftBracket leftClosed :: body = form.text ++ rest ∧ shape = form.shape := by
    intro leftClosed body hmap
    obtain ⟨found, hfound, hsome⟩ := exists_of_map_eq_ok hmap
    rw [Option.some.inj hsome] at hfound
    obtain ⟨left, right, rightClosed, rfl, rfl⟩ := exists_endsText_of_range hfound
    exact ⟨.range leftClosed left right rightClosed, rfl, rfl⟩
  unfold shapeAt at h
  split at h
  next body =>
    split at h
    · obtain ⟨⟨xs, left⟩, hmembers, hsome⟩ := exists_of_map_eq_ok h
      obtain ⟨rfl, rfl⟩ := Prod.mk.inj (Option.some.inj hsome)
      obtain ⟨first, others, rfl, rfl⟩ := exists_membersText_of_members hmembers
      exact ⟨.set first others, rfl, rfl⟩
    · cases h
  next body =>
    split at h
    · exact hrange h
    · cases h
  next body =>
    split at h
    · exact hrange h
    · cases h
  next => cases h

section Derivations

variable (before : Gap) (form : Form) (rest : Text)

theorem trimLeft_derivation :
    trimLeft (before.text ++ form.text ++ rest) = form.text ++ rest := by
  obtain ⟨c, after, hcons, hjoint⟩ := form.exists_cons
  rw [List.append_assoc, hcons]
  exact trimLeft_joint before hjoint (after ++ rest)

theorem scan_derivation :
    scan (before.text ++ form.text ++ rest) =
      .ok (some (form.interval,
        ⟨before.text ++ form.text ++ rest, (before.text ++ form.text).length⟩)) := by
  have hsource : (form.text ++ rest).take ((form.text ++ rest).length - rest.length) =
      form.text := by
    rw [List.length_append, Nat.add_sub_cancel, List.take_left]
  have hoffset : ((before.text ++ form.text ++ rest).length - rest.length : Int) =
      (before.text ++ form.text).length := by
    rw [List.length_append]
    omega
  simp only [scan, trimLeft_derivation, shapeAt_text, hsource, hoffset]
  rfl

theorem rest_derivation :
    (Cursor.mk (before.text ++ form.text ++ rest) (before.text ++ form.text).length).rest =
      rest := by
  rw [Cursor.rest_natCast, List.drop_left]

theorem parse_derivation (after : Gap) :
    parse (before.text ++ form.text ++ after.text) = .ok form.interval := by
  have htrailing : trimLeft after.text = [] := by
    have := trimLeft_gap after []
    rwa [List.append_nil] at this
  simp only [parse, scan_derivation, rest_derivation, htrailing, if_true]

end Derivations

/-- White space, interval and remainder are known from the whole. -/
theorem derivation_unique {before before' : Gap} {form form' : Form} {rest rest' : Text}
    (h : before.text ++ form.text ++ rest = before'.text ++ form'.text ++ rest') :
    before = before' ∧ form = form' ∧ rest = rest' := by
  have hforms : form.text ++ rest = form'.text ++ rest' := by
    rw [← trimLeft_derivation before, h, trimLeft_derivation]
  obtain ⟨rfl, rfl⟩ := Form.text_unique hforms
  rw [List.append_assoc, List.append_assoc] at h
  exact ⟨Gap.ext (List.append_cancel_right h), rfl, rfl⟩

theorem exists_derivation_of_scan {text : Text} {interval : Interval} {cursor : Cursor}
    (h : scan text = .ok (some (interval, cursor))) :
    ∃ (before : Gap) (form : Form) (rest : Text), text = before.text ++ form.text ++ rest := by
  unfold scan at h
  dsimp only at h
  split at h
  · cases h
  · cases h
  next shape rest hshape =>
    obtain ⟨form, hform, -⟩ := exists_form_of_shapeAt hshape
    obtain ⟨before, hbefore⟩ := exists_gap text
    rw [hform, ← List.append_assoc] at hbefore
    exact ⟨before, form, rest, hbefore⟩

theorem exists_derivation_of_parse {text : Text} {interval : Interval}
    (h : parse text = .ok interval) :
    ∃ (before : Gap) (form : Form) (after : Gap),
      text = before.text ++ form.text ++ after.text := by
  unfold parse at h
  cases hscan : scan text with
  | error fault =>
    rw [hscan] at h
    cases h
  | ok found =>
    cases found with
    | none =>
      rw [hscan] at h
      cases h
    | some found =>
      obtain ⟨before, form, rest, rfl⟩ := exists_derivation_of_scan hscan
      rw [scan_derivation] at h
      simp only [rest_derivation] at h
      split at h
      · next htrailing =>
        obtain ⟨after, hafter⟩ := exists_gap rest
        rw [htrailing, List.append_nil] at hafter
        exact ⟨before, form, after, by rw [hafter]⟩
      · cases h

theorem scan_fault {text : Text} {fault : Malformed} (h : scan text = .error fault) :
    ∃ left, fault = .leaving text left := by
  unfold scan at h
  cases hshape : shapeAt (trimLeft text) with
  | error left =>
    simp only [hshape, Except.error.injEq] at h
    exact ⟨left, h.symm⟩
  | ok found =>
    cases found <;> simp [hshape] at h

/-- The fault is about the whole text, and its place lies in the text. -/
theorem parse_fault {text : Text} {fault : Malformed} (h : parse text = .error fault) :
    fault.text = text ∧ fault.position ≤ text.length := by
  have hleaving : ∃ left, fault = .leaving text left := by
    unfold parse at h
    split at h
    next hscan =>
      obtain rfl := Except.error.inj h
      exact scan_fault hscan
    next => exact ⟨_, (Except.error.inj h).symm⟩
    next =>
      dsimp only at h
      split at h
      · cases h
      · exact ⟨_, (Except.error.inj h).symm⟩
  obtain ⟨left, rfl⟩ := hleaving
  exact ⟨rfl, Nat.sub_le _ _⟩

/-- The diagnostic of a fault can be made: its span begins in the text. -/
theorem invalidInterval?_natCast (text : Text) (position : Nat) :
    Diagnostic.invalidInterval? text position = .ok (Diagnostic.invalidInterval text position) := by
  have hstart : ¬ (position : Int) < 0 := by omega
  have hstop : ¬ max (position : Int) text.length < position := by omega
  have hmax : (max (position : Int) text.length).toNat = max position text.length := by omega
  simp only [Diagnostic.invalidInterval?, Span.ofBounds, dif_neg hstart, dif_neg hstop,
    Except.map, Int.toNat_natCast, hmax]
  rfl

/-- A whole text is read as an interval if and only if it is one, white space around it apart, and
the interval is that of its single derivation. Any other text is refused, and the refusal can be
reported. At the start of a text the interval that is written there is found, whatever follows it,
and read by itself it is the same. -/
theorem reads_exactly_the_derivable (text : Text) :
    (∀ interval, parse text = .ok interval ↔
      ∃ (before : Gap) (form : Form) (after : Gap),
        text = before.text ++ form.text ++ after.text ∧ interval = form.interval) ∧
    (∀ (before before' : Gap) (form form' : Form) (rest rest' : Text),
      text = before.text ++ form.text ++ rest → text = before'.text ++ form'.text ++ rest' →
        before = before' ∧ form = form' ∧ rest = rest') ∧
    ((∃ interval, parse text = .ok interval) ∨
      ∃ fault diagnostic, parse text = .error fault ∧ fault.position ≤ text.length ∧
        Diagnostic.invalidInterval? text fault.position = .ok diagnostic ∧
          Fault.ofMalformed fault = .interval (.diagnostic diagnostic) text fault.position) ∧
    (∀ interval cursor, scan text = .ok (some (interval, cursor)) ↔
      ∃ (before : Gap) (form : Form) (rest : Text),
        text = before.text ++ form.text ++ rest ∧ interval = form.interval ∧
          interval.source = form.text ∧ cursor.rest = rest ∧
            cursor = ⟨text, (before.text ++ form.text).length⟩) ∧
    ∀ interval cursor, scan text = .ok (some (interval, cursor)) →
      parse interval.source = .ok interval := by
  have hscan : ∀ interval cursor, scan text = .ok (some (interval, cursor)) ↔
      ∃ (before : Gap) (form : Form) (rest : Text),
        text = before.text ++ form.text ++ rest ∧ interval = form.interval ∧
          interval.source = form.text ∧ cursor.rest = rest ∧
            cursor = ⟨text, (before.text ++ form.text).length⟩ := by
    intro interval cursor
    constructor
    · intro h
      obtain ⟨before, form, rest, rfl⟩ := exists_derivation_of_scan h
      rw [scan_derivation] at h
      obtain ⟨rfl, rfl⟩ := Prod.mk.inj (Option.some.inj (Except.ok.inj h))
      exact ⟨before, form, rest, rfl, rfl, rfl, rest_derivation before form rest, rfl⟩
    · rintro ⟨before, form, rest, rfl, rfl, -, -, rfl⟩
      exact scan_derivation before form rest
  refine ⟨?_, ?_, ?_, hscan, ?_⟩
  · intro interval
    constructor
    · intro h
      obtain ⟨before, form, after, rfl⟩ := exists_derivation_of_parse h
      rw [parse_derivation] at h
      exact ⟨before, form, after, rfl, (Except.ok.inj h).symm⟩
    · rintro ⟨before, form, after, rfl, rfl⟩
      exact parse_derivation before form after
  · rintro before before' form form' rest rest' rfl h
    exact derivation_unique h
  · cases hparse : parse text with
    | ok interval => exact Or.inl ⟨interval, rfl⟩
    | error fault =>
      obtain ⟨htext, hposition⟩ := parse_fault hparse
      refine Or.inr ⟨fault, _, rfl, hposition, invalidInterval?_natCast text fault.position, ?_⟩
      rw [Fault.ofMalformed, htext]
  · intro interval cursor h
    obtain ⟨-, form, -, -, rfl, -⟩ := (hscan interval cursor).1 h
    have hparse := parse_derivation .empty form .empty
    rw [Gap.empty, List.nil_append, List.append_nil] at hparse
    exact hparse

def belowTwoAndAHalf : Form :=
  let whole : Digits := ⟨"2", by decide, List.all_eq_true.1 rfl⟩
  let fraction : Digits := ⟨"50", by decide, List.all_eq_true.1 rfl⟩
  .range true ⟨.empty, .negativeInfinity, .space⟩
    ⟨⟨"\t", List.all_eq_true.1 rfl⟩, .number ⟨false, whole, some fraction⟩, .empty⟩ false

theorem reads_exactly_the_derivable_below :
    parse " [-Inf ,\t2.50[" = .ok belowTwoAndAHalf.interval ∧
      (∃ cursor, scan " [-Inf ,\t2.50[few" = .ok (some (belowTwoAndAHalf.interval, cursor)) ∧
        cursor.rest = "few") ∧
      parse belowTwoAndAHalf.interval.source = .ok belowTwoAndAHalf.interval ∧
      (∀ (before : Gap) (form : Form) (rest : Text),
        " [-Inf ,\t2.50[few" = before.text ++ form.text ++ rest → form = belowTwoAndAHalf) := by
  have hwhole := (reads_exactly_the_derivable " [-Inf ,\t2.50[").1 belowTwoAndAHalf.interval
  obtain ⟨-, hunique, -, hscan, hsource⟩ := reads_exactly_the_derivable " [-Inf ,\t2.50[few"
  have hfound := (hscan belowTwoAndAHalf.interval ⟨_, 14⟩).2
    ⟨.space, belowTwoAndAHalf, "few", rfl, rfl, rfl, rfl, rfl⟩
  refine ⟨hwhole.2 ⟨.space, belowTwoAndAHalf, .empty, rfl, rfl⟩, ⟨_, hfound, rfl⟩,
    hsource _ _ hfound, ?_⟩
  intro before form rest htext
  have hwritten : (" [-Inf ,\t2.50[few" : Text) =
      Gap.space.text ++ belowTwoAndAHalf.text ++ ("few" : Text) := rfl
  exact (hunique before .space form belowTwoAndAHalf rest "few" htext hwritten).2.1

end Interval
end Phrasebook
