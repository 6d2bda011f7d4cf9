import Phrasebook.Proofs.Interval.Scanning

/-!
Where reading gets stuck. A number or the end of a range is read to its end, and the next character
tells that it has ended. So where none can be read, the text begins with a part of one that is not
finished, if with anything of the kind, and no other text with the same next character can be read
there. This carries over to a thing in white space with the joint behind it, and from there to what
is read in steps of this kind.
-/
namespace Phrasebook.Interval

open Text

def Begins {α : Type} (write : α → Text) (text : Text) : Prop := ∃ a more, write a = text ++ more

/-- A part of something that is written, which is neither empty nor the whole of anything. -/
structure Unfinished {α : Type} (write : α → Text) (text : Text) : Prop where
  ne_nil : text ≠ []
  begins : Begins write text
  ne_write : ∀ a, write a ≠ text

def Digits.snoc (digits : Digits) {c : Char} (h : c.isDigit) : Digits where
  text := digits.text ++ [c]
  ne_nil := by simp
  isDigit := by
    intro d hd
    rcases List.mem_append.1 hd with hdigits | hlast
    · exact digits.isDigit d hdigits
    · rwa [List.mem_singleton.1 hlast]

def Digits.zero : Digits := ⟨['0'], by simp, by simp⟩

theorem Literal.begins_longer {literal : Literal} {c : Char} (h : literal.goesOn c) :
    Begins Literal.text (literal.text ++ [c]) := by
  obtain ⟨negative, whole, fraction⟩ := literal
  cases fraction with
  | none =>
    have hc : c.isDigit ∨ c = '.' := by simpa [goesOn, isNumeric] using h
    rcases hc with hdigit | rfl
    · refine ⟨⟨negative, whole.snoc hdigit, none⟩, [], ?_⟩
      cases negative <;> simp [text, unsignedText, Digits.snoc]
    · refine ⟨⟨negative, whole, some .zero⟩, ['0'], ?_⟩
      cases negative <;> simp [text, unsignedText, Digits.zero]
  | some fraction =>
    have hdigit : c.isDigit := h
    refine ⟨⟨negative, whole, some (fraction.snoc hdigit)⟩, [], ?_⟩
    cases negative <;> simp [text, unsignedText, Digits.snoc]

theorem Bound.begins_longer {bound : Bound} {c : Char} (h : bound.goesOn c) :
    Begins Bound.text (bound.text ++ [c]) := by
  cases bound with
  | number literal =>
    obtain ⟨longer, more, hlonger⟩ := Literal.begins_longer h
    exact ⟨.number longer, more, hlonger⟩
  | negativeInfinity => cases h
  | positiveInfinity signed => cases h

/-- A number that is not finished is no infinity either. -/
theorem Unfinished.bound {text : Text} (h : Unfinished Literal.text text) :
    Unfinished Bound.text text where
  ne_nil := h.ne_nil
  begins := by
    obtain ⟨literal, more, hliteral⟩ := h.begins
    exact ⟨.number literal, more, hliteral⟩
  ne_write := by
    rintro bound rfl
    obtain ⟨literal, more, hliteral⟩ := h.begins
    have hnone := literal.infinity?_text []
    rw [List.append_nil, hliteral, bound.infinity?_text] at hnone
    cases bound with
    | number other => exact h.ne_write other rfl
    | negativeInfinity => cases hnone
    | positiveInfinity signed => cases hnone

/-- A text is cut where a property of what comes first is lost with the next character. -/
theorem exists_longest {p : Text → Prop} {begun : Text} (h : p begun) (behind : Text) :
    ∃ longest rest, begun ++ behind = longest ++ rest ∧ p longest ∧
      ∀ c tail, rest = c :: tail → ¬ p (longest ++ [c]) := by
  induction behind generalizing begun with
  | nil => exact ⟨begun, [], rfl, h, by simp⟩
  | cons c behind ih =>
    by_cases hc : p (begun ++ [c])
    · obtain ⟨longest, rest, htext, hlongest, hlost⟩ := ih hc
      exact ⟨longest, rest, by simpa using htext, hlongest, hlost⟩
    · refine ⟨begun, c :: behind, rfl, h, ?_⟩
      rintro d tail ⟨rfl, rfl⟩
      exact hc

/-- A way to read one kind of thing from the start of a text. A thing is read if it is written
there, to its end, which is where no character goes on with it. -/
structure Reader (α : Type) where
  write : α → Text
  value : α → Binary64
  goesOn : α → Char → Bool
  read? : Text → Option (Binary64 × Text)
  nonempty : Nonempty α
  readable : Readable write
  isNumeric_of_goesOn : ∀ {a c}, goesOn a c → isNumeric c
  begins_longer : ∀ {a c}, goesOn a c → Begins write (write a ++ [c])
  unfinished_bound : ∀ {text}, Unfinished write text → Unfinished Bound.text text
  read?_write : ∀ a {rest}, StartsWithout (goesOn a) rest →
    read? (write a ++ rest) = some (value a, rest)
  exists_of_read? : ∀ {text rest x}, read? text = some (x, rest) →
    ∃ a, text = write a ++ rest ∧ x = value a ∧ StartsWithout (goesOn a) rest

def numbers : Reader Literal where
  write := Literal.text
  value := Literal.value
  goesOn := Literal.goesOn
  read? := number?
  nonempty := ⟨⟨false, .zero, none⟩⟩
  readable := Literal.readable
  isNumeric_of_goesOn := Literal.isNumeric_of_goesOn
  begins_longer := Literal.begins_longer
  unfinished_bound := Unfinished.bound
  read?_write := number?_text
  exists_of_read? := exists_literal_of_number?

def bounds : Reader Bound where
  write := Bound.text
  value := Bound.value
  goesOn := Bound.goesOn
  read? := endpoint?
  nonempty := ⟨.negativeInfinity⟩
  readable := Bound.readable
  isNumeric_of_goesOn := Bound.isNumeric_of_goesOn
  begins_longer := Bound.begins_longer
  unfinished_bound := id
  read?_write := endpoint?_text
  exists_of_read? := exists_bound_of_endpoint?

namespace Reader

variable {α : Type} (reader : Reader α)

/-- Where nothing can be read, the text is cut behind the part of a thing that it begins with. -/
theorem exists_begun {text : Text} (hnone : reader.read? text = none) :
    ∃ begun behind, text = begun ++ behind ∧ (begun = [] ∨ Unfinished reader.write begun) ∧
      Begins reader.write begun ∧
      ∀ c tail, behind = c :: tail → ∀ more, reader.read? (begun ++ c :: more) = none := by
  have hempty : Begins reader.write [] := by
    obtain ⟨a⟩ := reader.nonempty
    exact ⟨a, _, rfl⟩
  obtain ⟨begun, behind, htext, hbegins, hlost⟩ := exists_longest hempty text
  rw [List.nil_append] at htext
  subst htext
  refine ⟨begun, behind, rfl, ?_, hbegins, ?_⟩
  · -- the whole of a thing would be read, or would go on
    by_cases hnil : begun = []
    · exact Or.inl hnil
    · refine Or.inr ⟨hnil, hbegins, ?_⟩
      rintro a rfl
      have hends : StartsWithout (reader.goesOn a) behind := by
        intro c hc
        obtain ⟨tail, rfl⟩ := List.head?_eq_some_iff.1 (Option.mem_def.1 hc)
        by_contra hgoes
        exact hlost c tail rfl (reader.begins_longer (Bool.of_not_eq_false hgoes))
      rw [reader.read?_write a hends] at hnone
      cases hnone
  · rintro c tail rfl more
    cases hread : reader.read? (begun ++ c :: more) with
    | none => rfl
    | some found =>
      obtain ⟨x, rest⟩ := found
      -- the thing that is read there ends before the character and would be read from the text
      obtain ⟨a, hwritten, -, hends⟩ := reader.exists_of_read? hread
      have hbefore : ∃ gap, begun = reader.write a ++ gap ∧ rest = gap ++ c :: more := by
        rcases List.append_eq_append_iff.1 hwritten with ⟨last, ha, hlast⟩ | hbefore
        · cases last with
          | nil =>
            rw [List.append_nil] at ha
            exact ⟨[], by rw [List.append_nil, ha], by simpa using hlast.symm⟩
          | cons d last =>
            obtain ⟨rfl, -⟩ := List.cons.inj hlast
            exact absurd ⟨a, last, by simpa using ha⟩ (hlost c tail rfl)
        · exact hbefore
      obtain ⟨gap, rfl, rfl⟩ := hbefore
      rw [List.append_assoc, reader.read?_write a (hends.append_cons gap tail)] at hnone
      cases hnone

def atJoint (joint : Char → Bool) (x : Binary64) : Text → Except Text (Binary64 × Char × Text)
  | [] => .error []
  | c :: rest => if joint c then .ok (x, c, rest) else .error (c :: rest)

def upToJoint (joint : Char → Bool) (text : Text) : Except Text (Binary64 × Char × Text) :=
  match reader.read? (trimLeft text) with
  | none => .error (trimLeft text)
  | some (x, after) => atJoint joint x (trimLeft after)

variable {joint : Char → Bool} {x : Binary64} {c : Char} {text left rest : Text}

theorem atJoint_cons (h : joint c) (x : Binary64) (rest : Text) :
    atJoint joint x (c :: rest) = .ok (x, c, rest) :=
  if_pos h

theorem atJoint_cons_of_not (h : joint c = false) (x : Binary64) (rest : Text) :
    atJoint joint x (c :: rest) = .error (c :: rest) :=
  if_neg (Bool.eq_false_iff.1 h)

theorem eq_of_atJoint {y : Binary64} (h : atJoint joint y text = .ok (x, c, rest)) :
    joint c ∧ y = x ∧ text = c :: rest := by
  cases text with
  | nil => cases h
  | cons d text =>
    by_cases hjoint : joint d
    · rw [atJoint_cons hjoint] at h
      cases h
      exact ⟨hjoint, rfl, rfl⟩
    · rw [atJoint_cons_of_not (Bool.of_not_eq_true hjoint)] at h
      cases h

theorem not_joint_of_atJoint (h : atJoint joint x text = .error left) :
    text = left ∧ ∀ c tail, text = c :: tail → joint c = false := by
  cases text with
  | nil => exact ⟨Except.error.inj h, by simp⟩
  | cons d text =>
    by_cases hjoint : joint d
    · rw [atJoint_cons hjoint] at h
      cases h
    · rw [atJoint_cons_of_not (Bool.of_not_eq_true hjoint)] at h
      refine ⟨Except.error.inj h, ?_⟩
      rintro c tail ⟨rfl, rfl⟩
      exact Bool.of_not_eq_true hjoint

/-- What is read of a text in which the thing ends. -/
theorem upToJoint_text (joint : Char → Bool) (before : Gap) (a : α) (after : Gap)
    (hends : StartsWithout (reader.goesOn a) (after.text ++ rest))
    (hrest : StartsWithout isBlank rest) :
    reader.upToJoint joint (before.text ++ (reader.write a ++ (after.text ++ rest))) =
      atJoint joint (reader.value a) rest := by
  have hitem : trimLeft (before.text ++ (reader.write a ++ (after.text ++ rest))) =
      reader.write a ++ (after.text ++ rest) := by
    rw [trimLeft_gap]
    exact dropWhile_of_startsWithout (reader.readable.startsWithout_isBlank a _)
  have hafter : trimLeft (after.text ++ rest) = rest := by
    rw [trimLeft_gap]
    exact dropWhile_of_startsWithout hrest
  simp only [upToJoint, hitem, reader.read?_write a hends, hafter]

/-- A text holds a thing to its end, or none can be read behind its white space. -/
theorem upToJoint_cases (joint : Char → Bool) (text : Text) :
    (∃ (before : Gap) (item : Text), text = before.text ++ item ∧ StartsWithout isBlank item ∧
      reader.read? item = none ∧ reader.upToJoint joint text = .error item) ∨
    ∃ (before : Gap) (a : α) (after : Gap) (rest : Text),
      text = before.text ++ (reader.write a ++ (after.text ++ rest)) ∧
        StartsWithout (reader.goesOn a) (after.text ++ rest) ∧ StartsWithout isBlank rest := by
  obtain ⟨before, hbefore⟩ := exists_gap text
  cases hread : reader.read? (trimLeft text) with
  | none =>
    exact Or.inl ⟨before, _, hbefore, startsWithout_dropWhile isBlank text, hread,
      by simp only [upToJoint, hread]⟩
  | some found =>
    obtain ⟨x, rest⟩ := found
    obtain ⟨a, hitem, -, hends⟩ := reader.exists_of_read? hread
    obtain ⟨after, hafter⟩ := exists_gap rest
    rw [hafter] at hitem hends
    rw [hitem] at hbefore
    exact Or.inr ⟨before, a, after, _, hbefore, hends, startsWithout_dropWhile isBlank rest⟩

/-- What is read up to a joint does not depend on what is behind it. -/
theorem exists_of_upToJoint (h : reader.upToJoint joint text = .ok (x, c, rest)) :
    ∃ before, text = before ++ c :: rest ∧
      ∀ other, reader.upToJoint joint (before ++ c :: other) = .ok (x, c, other) := by
  rcases reader.upToJoint_cases joint text with
    ⟨before, item, -, -, -, herror⟩ | ⟨before, a, after, behind, rfl, hends, hbehind⟩
  · rw [herror] at h
    cases h
  · rw [reader.upToJoint_text joint before a after hends hbehind] at h
    obtain ⟨hjoint, rfl, rfl⟩ := eq_of_atJoint h
    refine ⟨before.text ++ (reader.write a ++ after.text), by simp, ?_⟩
    intro other
    have hread := reader.upToJoint_text joint before a after
      (hends.append_cons after.text _) (show StartsWithout isBlank (c :: other) from hbehind)
    rw [atJoint_cons hjoint] at hread
    simpa using hread

/-- Where no joint is reached, what was begun can be finished with every joint behind it, and no
joint is reached with the next character either. -/
theorem exists_stop (hjoints : ∀ c, joint c → isJoint c)
    (h : reader.upToJoint joint text = .error left) :
    ∃ before begun behind, text = before ++ begun ++ behind ∧ left = begun ++ behind ∧
      (begun = [] ∨ Unfinished Bound.text begun) ∧
      (∀ c, joint c → ∃ more x, ∀ rest,
        reader.upToJoint joint (before ++ begun ++ (more ++ c :: rest)) = .ok (x, c, rest)) ∧
      ∀ c tail, behind = c :: tail → ∀ more,
        (reader.upToJoint joint (before ++ begun ++ c :: more)).isOk = false := by
  -- what is finished is read up to a joint that is put behind it
  have hfinish : ∀ (before : Gap) (a : α) (after : Gap) (c : Char), joint c → ∀ rest,
      reader.upToJoint joint (before.text ++ (reader.write a ++ (after.text ++ c :: rest))) =
        .ok (reader.value a, c, rest) := by
    intro before a after c hjoint rest
    obtain ⟨hblank, hnumeric⟩ := startsWithout_of_isJoint (hjoints c hjoint) rest
    rw [reader.upToJoint_text joint before a after
      ((startsWithout_gap after hnumeric).mono fun _ => reader.isNumeric_of_goesOn) hblank]
    exact atJoint_cons hjoint _ rest
  rcases reader.upToJoint_cases joint text with
    ⟨before, item, rfl, hitem, hnone, herror⟩ | ⟨before, a, after, rest, rfl, hends, hrest⟩
  · obtain rfl : item = left := Except.error.inj (herror.symm.trans h)
    obtain ⟨begun, behind, rfl, hunfinished, ⟨a, more, ha⟩, hlost⟩ := reader.exists_begun hnone
    refine ⟨before.text, begun, behind, by simp, rfl,
      hunfinished.imp id reader.unfinished_bound, ?_, ?_⟩
    · intro c hjoint
      refine ⟨more, reader.value a, fun rest => ?_⟩
      have hread := hfinish before a .empty c hjoint rest
      rw [ha] at hread
      simpa [Gap.empty] using hread
    · rintro c tail rfl more
      have htrim : trimLeft (before.text ++ begun ++ c :: more) = begun ++ c :: more := by
        rw [List.append_assoc, trimLeft_gap]
        exact dropWhile_of_startsWithout (hitem.append_cons begun more)
      simp only [upToJoint, htrim, hlost c tail rfl more]
      rfl
  · rw [reader.upToJoint_text joint before a after hends hrest] at h
    obtain ⟨rfl, hmissing⟩ := not_joint_of_atJoint h
    refine ⟨before.text ++ (reader.write a ++ after.text), [], rest, by simp, rfl, Or.inl rfl,
      ?_, ?_⟩
    · intro c hjoint
      refine ⟨[], reader.value a, fun rest => ?_⟩
      simpa using hfinish before a after c hjoint rest
    · rintro c tail rfl more
      have hread := reader.upToJoint_text joint before a after
        (hends.append_cons after.text _) (show StartsWithout isBlank (c :: more) from hrest)
      rw [atJoint_cons_of_not (hmissing c tail rfl)] at hread
      simp only [List.append_assoc, List.nil_append, hread]
      rfl

end Reader

/-- Reading a text gets stuck before what is left of it. Up to there, and with what is begun there,
the text can be completed to one that is read; with the next character it cannot. -/
def StopsAt {β : Type} (read : Text → Except Text β) (text left : Text) : Prop :=
  ∃ before begun behind, text = before ++ begun ++ behind ∧ left = begun ++ behind ∧
    (begun = [] ∨ Unfinished Bound.text begun) ∧
    (∃ more, (read (before ++ begun ++ more)).isOk) ∧
    ∀ c tail, behind = c :: tail → ∀ more, (read (before ++ begun ++ c :: more)).isOk = false

section Steps

variable {α β γ : Type} {read : Text → Except Text β} {text left : Text}

theorem isOk_map (outcome : Except Text β) (f : β → γ) : (outcome.map f).isOk = outcome.isOk := by
  cases outcome <;> rfl

theorem StopsAt.map (h : StopsAt read text left) (f : β → γ) :
    StopsAt (fun text => (read text).map f) text left := by
  simpa only [StopsAt, isOk_map] using h

/-- Reading a thing up to its joint, and then what is behind it, gets stuck in one of the two. -/
theorem Reader.stopsAt_bind (reader : Reader α) {joint : Char → Bool}
    (hjoints : ∀ c, joint c → isJoint c) {next : Binary64 × Char × Text → Except Text β}
    (hfinish : ∃ c rest, joint c ∧ ∀ x, (next (x, c, rest)).isOk)
    (hnext : ∀ x c rest, reader.upToJoint joint text = .ok (x, c, rest) →
      next (x, c, rest) = .error left → StopsAt (fun behind => next (x, c, behind)) rest left)
    (h : reader.upToJoint joint text >>= next = .error left) :
    StopsAt (fun text => reader.upToJoint joint text >>= next) text left := by
  cases hitem : reader.upToJoint joint text with
  | error stuck =>
    rw [hitem] at h
    obtain rfl : stuck = left := Except.error.inj h
    obtain ⟨before, begun, behind, htext, hleft, hunfinished, hcomplete, hlost⟩ :=
      reader.exists_stop hjoints hitem
    refine ⟨before, begun, behind, htext, hleft, hunfinished, ?_, ?_⟩
    · obtain ⟨c, rest, hjoint, hok⟩ := hfinish
      obtain ⟨more, x, hread⟩ := hcomplete c hjoint
      refine ⟨more ++ c :: rest, ?_⟩
      simp only [hread]
      exact hok x
    · intro c tail htail more
      have hfails := hlost c tail htail more
      dsimp only
      cases hread : reader.upToJoint joint (before ++ begun ++ c :: more) with
      | error _ => rfl
      | ok _ =>
        rw [hread] at hfails
        cases hfails
  | ok found =>
    obtain ⟨x, c, rest⟩ := found
    rw [hitem] at h
    obtain ⟨first, rfl, hread⟩ := reader.exists_of_upToJoint hitem
    obtain ⟨before, begun, behind, rfl, hleft, hunfinished, ⟨more, hcomplete⟩, hlost⟩ :=
      hnext x c rest hitem h
    refine ⟨first ++ c :: before, begun, behind, by simp, hleft, hunfinished, ⟨more, ?_⟩, ?_⟩
    · simp only [List.append_assoc, List.cons_append, hread] at hcomplete ⊢
      exact hcomplete
    · intro d tail htail more
      have hfails := hlost d tail htail more
      simp only [List.append_assoc, List.cons_append, hread] at hfails ⊢
      exact hfails

end Steps

end Phrasebook.Interval
