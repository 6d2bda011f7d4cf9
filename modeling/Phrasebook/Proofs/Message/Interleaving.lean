import Phrasebook.Proofs.Message.Resolving
import Phrasebook.Proofs.Message.Truncation

/-!
What the order of the clauses does to a choice. Explicit and standard clauses are kept in two lists,
and a choice is made from these lists. So it makes no difference where the explicit clauses stand
among the standard ones. A clause that takes a count by its interval takes it from all standard
clauses and from everything that is written behind it.
-/
namespace Phrasebook

def hasInterval (segment : Text) : Bool :=
  match Interval.scan segment with
  | .ok (some _) => true
  | _ => false

namespace Clause

def explicit? : Clause → Option (Interval × Text)
  | explicit interval text => some (interval, text)
  | standard _ => none

def standard? : Clause → Option Text
  | explicit .. => none
  | standard text => some text

/-- What a segment that can be read adds to one of the lists. -/
theorem explicit?_of_read {segment : Text} {clause : Clause}
    (h : Clause.read segment = .ok clause) :
    (hasInterval segment = false → clause.explicit? = none) ∧
      (hasInterval segment = true → clause.standard? = none) := by
  rcases Clause.cases_of_read h with ⟨hscan, rfl⟩ | ⟨interval, cursor, hscan, rfl⟩
  · simp [hasInterval, hscan, explicit?]
  · simp [hasInterval, hscan, standard?]

end Clause

namespace Number

theorem exists_place {count : Number} (h : count.isSignaling = false) :
    ∃ place, count.place = .ok place := by
  obtain ⟨whole, hwhole, hsignaling⟩ := exists_whole h
  obtain ⟨place, hpoint⟩ := exists_point hsignaling
  exact ⟨place, by rw [Number.place, hwhole]; exact hpoint⟩

theorem place_of_isSignaling {count : Number} (h : count.isSignaling) :
    count.place = .error ⟨⟩ := by
  unfold isSignaling at h
  split at h
  · next negative signaling payload =>
    subst h
    rfl
  · cases h

end Number

namespace Message

def explicitSegments (text : Text) : List Text := (segments text).filter hasInterval

def standardSegments (text : Text) : List Text := (segments text).filter (!hasInterval ·)

/-- Two messages have the same explicit segments in the same order, and the same others. -/
structure SameSegments (text other : Text) : Prop where
  explicit : explicitSegments text = explicitSegments other
  standard : standardSegments text = standardSegments other

/-- What is picked of the clauses is picked of the segments by reading them. -/
theorem filterMap_clauses_of_read {α : Type} {text : Text} {message : Message}
    (h : read text = .ok message) (pick : Clause → Option α) :
    message.clauses.filterMap pick =
      (segments text).filterMap fun segment => (Clause.read segment).toOption.bind pick := by
  have hclauses := forall₂_of_read h
  generalize segments text = segments at hclauses
  generalize message.clauses = clauses at hclauses
  induction hclauses with
  | nil => rfl
  | cons hclause _ ih =>
    simp only [List.filterMap_cons, hclause, Except.toOption, Option.bind_some, ih]

/-- Segments from which nothing is picked may be left out. -/
theorem filterMap_segments_of_read {α : Type} (kept : Text → Bool) {pick : Clause → Option α}
    (hpick : ∀ segment clause, Clause.read segment = .ok clause → kept segment = false →
      pick clause = none) (segments : List Text) :
    segments.filterMap (fun segment => (Clause.read segment).toOption.bind pick) =
      (segments.filter kept).filterMap fun segment => (Clause.read segment).toOption.bind pick := by
  rw [List.filterMap_filter]
  refine List.filterMap_congr fun segment _ => ?_
  cases hkept : kept segment with
  | true => simp
  | false =>
    cases hread : Clause.read segment with
    | error fault => simp [Except.toOption]
    | ok clause => simp [Except.toOption, hpick segment clause hread hkept]

theorem explicit_of_read {text : Text} {message : Message} (h : read text = .ok message) :
    message.explicit = (explicitSegments text).filterMap fun segment =>
      (Clause.read segment).toOption.bind Clause.explicit? := by
  have hpicked := filterMap_clauses_of_read h Clause.explicit?
  have hsegments := filterMap_segments_of_read hasInterval
    (fun _ _ hread => (Clause.explicit?_of_read hread).1) (segments text)
  exact hpicked.trans hsegments

theorem standard_of_read {text : Text} {message : Message} (h : read text = .ok message) :
    message.standard = (standardSegments text).filterMap fun segment =>
      (Clause.read segment).toOption.bind Clause.standard? := by
  have hpicked := filterMap_clauses_of_read h Clause.standard?
  have hsegments := filterMap_segments_of_read (!hasInterval ·)
    (fun _ _ hread hkept => (Clause.explicit?_of_read hread).2 (by simpa using hkept))
    (segments text)
  exact hpicked.trans hsegments

/-- A message is a single standard clause if its lists say so. -/
theorem clauses_eq_standard_iff (message : Message) (only : Text) :
    message.clauses = [.standard only] ↔ message.explicit = [] ∧ message.standard = [only] := by
  constructor
  · intro h
    simp [explicit, standard, h]
  · rintro ⟨hexplicit, hstandard⟩
    have hlength := length_explicit_add_length_standard message
    rw [hexplicit, hstandard] at hlength
    obtain ⟨clause, hclause⟩ := List.length_eq_one_iff.1 hlength.symm
    rw [standard, hclause] at hstandard
    cases clause with
    | explicit interval text => cases hstandard
    | standard text =>
      cases hstandard
      exact hclause

/-- A choice at a place is made from the first explicit clause that holds it, from the standard
clauses, and from whether there are explicit ones. -/
theorem choose?_congr {message other : Message} {place : Point}
    (hfind : message.explicit.find? (fun clause => clause.1.shape.contains place) =
      other.explicit.find? fun clause => clause.1.shape.contains place)
    (hnil : message.explicit = [] ↔ other.explicit = [])
    (hstandard : message.standard = other.standard) (language : Text) :
    message.choose? place language = other.choose? place language := by
  have hsingle : ∀ only, message.clauses = [.standard only] ↔ other.clauses = [.standard only] := by
    intro only
    rw [clauses_eq_standard_iff, clauses_eq_standard_iff, hnil, hstandard]
  unfold choose?
  rw [hfind, hstandard]
  by_cases h : ∃ only, message.clauses = [.standard only]
  · obtain ⟨only, hmessage⟩ := h
    rw [hmessage, (hsingle only).1 hmessage]
  · have hother : ¬ ∃ only, other.clauses = [.standard only] :=
      fun ⟨only, honly⟩ => h ⟨only, (hsingle only).2 honly⟩
    congr 3
    funext _
    dsimp only
    split
    · rfl
    · split
      next only honly => exact absurd ⟨only, honly⟩ h
      next =>
        split
        next only honly => exact absurd ⟨only, honly⟩ hother
        next => rfl

/-- Two written messages make the same choice for a count, or fail alike for want of a clause. The
diagnostic of the failure tells the count, which may be too long for it. -/
inductive SelectAlike (text other : Text) (count : Number) (language : Text) : Prop
  | choice (choice : Choice) (h : selectFrom text count language = .ok choice)
    (hother : selectFrom other count language = .ok choice)
  | noForm (hcount : count.isWritable)
    (h : ∃ diagnostic, selectFrom text count language =
      .error (.noForm diagnostic text count language))
    (hother : ∃ diagnostic, selectFrom other count language =
      .error (.noForm diagnostic other count language))
  | tooManyDigits (hcount : count.isWritable = false)
    (h : selectFrom text count language = .error .tooManyDigits)
    (hother : selectFrom other count language = .error .tooManyDigits)

theorem selectFrom_of_place {text : Text} {message : Message} (h : read text = .ok message)
    {count : Number} {place : Point} (hplace : count.place = .ok place) (language : Text) :
    selectFrom text count language =
      (message.choose? place language).elim (.error (message.noChoice count language)) .ok := by
  simp only [selectFrom, h, select_eq, hplace]
  cases message.choose? place language <;> rfl

/-- Messages that choose alike at the place of a count select alike. -/
theorem selectAlike_of_choose?_eq {text other : Text} {message message' : Message}
    (hread : read text = .ok message) (hother : read other = .ok message') {count : Number}
    {place : Point} (hplace : count.place = .ok place) {language : Text}
    (hchoose : message.choose? place language = message'.choose? place language) :
    SelectAlike text other count language := by
  have htext := selectFrom_of_place hread hplace language
  have hmixed := selectFrom_of_place hother hplace language
  rw [hchoose] at htext
  cases hfound : message'.choose? place language with
  | some choice =>
    rw [hfound] at htext hmixed
    exact .choice choice htext hmixed
  | none =>
    rw [hfound] at htext hmixed
    cases hcount : count.isWritable with
    | false =>
      refine .tooManyDigits hcount (htext.trans ?_) (hmixed.trans ?_)
      · exact congrArg Except.error (noChoice_of_not_isWritable hcount message language)
      · exact congrArg Except.error (noChoice_of_not_isWritable hcount message' language)
    | true =>
      obtain ⟨first, hfirst⟩ := noChoice_of_isWritable hcount message language
      obtain ⟨last, hlast⟩ := noChoice_of_isWritable hcount message' language
      rw [source_of_read hread] at hfirst
      rw [source_of_read hother] at hlast
      exact .noForm hcount ⟨first, htext.trans (congrArg Except.error hfirst)⟩
        ⟨last, hmixed.trans (congrArg Except.error hlast)⟩

theorem selectFrom_of_isSignaling {text : Text} {message : Message} (h : read text = .ok message)
    {count : Number} (hcount : count.isSignaling) (language : Text) :
    selectFrom text count language = .error .incomparable := by
  simp only [selectFrom, h, select_eq, Number.place_of_isSignaling hcount]

/-- At any place, two messages with the same segments choose alike. -/
theorem choose?_of_sameSegments {text other : Text} {message message' : Message}
    (hread : read text = .ok message) (hother : read other = .ok message')
    (hsame : SameSegments text other) (place : Point) (language : Text) :
    message.choose? place language = message'.choose? place language := by
  have hexplicit : message.explicit = message'.explicit := by
    rw [explicit_of_read hread, explicit_of_read hother, hsame.explicit]
  have hstandard : message.standard = message'.standard := by
    rw [standard_of_read hread, standard_of_read hother, hsame.standard]
  exact choose?_congr (by rw [hexplicit]) (by rw [hexplicit]) hstandard language

/-- Segments behind a text are segments behind its segments. -/
theorem segments_append (text more : Text) :
    segments (text ++ '|' :: more) = segments text ++ segments more := by
  rw [segments, Text.split_append_split, List.map_append]
  rfl

theorem explicitSegments_append (text more : Text) :
    explicitSegments (text ++ '|' :: more) = explicitSegments text ++ explicitSegments more := by
  rw [explicitSegments, segments_append, List.filter_append]
  rfl

/-- Two messages make one with the clauses of both. -/
theorem read_append {text more : Text} {message message' : Message}
    (hread : read text = .ok message) (hmore : read more = .ok message') :
    read (text ++ '|' :: more) =
      .ok ⟨text ++ '|' :: more, message.clauses ++ message'.clauses⟩ := by
  refine read_eq_ok_iff.2 ⟨rfl, ?_⟩
  rw [segments_append]
  exact List.rel_append (forall₂_of_read hread) (forall₂_of_read hmore)

/-- An interval contains a number if and only if its shape contains the number's place. -/
theorem contains_of_point {whole : Number} {place : Point} (h : whole.point = .ok place)
    (interval : Interval) : interval.contains whole = .ok (interval.shape.contains place) := by
  rw [Interval.contains, h]
  rfl

/-- The first clause that takes a count takes it in every message with these explicit segments in
front, whatever other segments there are. -/
theorem selectFrom_of_prefix {text other : Text} {message message' : Message}
    (hread : read text = .ok message) (hother : read other = .ok message')
    (hfront : explicitSegments text <+: explicitSegments other) {count : Number} {place : Point}
    (hplace : count.place = .ok place) {interval : Interval} {found : Text}
    (hfind : message.explicit.find? (fun clause => clause.1.shape.contains place) =
      some (interval, found)) (language : Text) :
    selectFrom other count language = .ok (.explicit interval found) := by
  refine selectFrom_of_find? hother hplace ?_ language
  obtain ⟨behind, hbehind⟩ := hfront
  rw [explicit_of_read hread] at hfind
  rw [explicit_of_read hother, ← hbehind, List.filterMap_append, List.find?_append, hfind]
  rfl

/-- A choice depends on the explicit segments and on the standard ones, and not on how the two are
mixed. Whenever an explicit clause takes a count, the first that does is chosen, for each language
and with any other segments among the explicit ones or behind them. A signaling NaN is refused
whatever the message is. -/
theorem selection_ignores_interleaving {text other : Text} {message message' : Message}
    (hread : read text = .ok message) (hother : read other = .ok message')
    (hsame : SameSegments text other) (count : Number) :
    (count.isSignaling = false → ∀ language, SelectAlike text other count language) ∧
    (count.isSignaling → ∀ language,
      selectFrom text count language = .error .incomparable ∧
        selectFrom other count language = .error .incomparable) ∧
    ∀ whole, count.whole = .ok whole →
      (∃ clause ∈ message.explicit, clause.1.contains whole = .ok true) →
      ∃ before interval found after, message.explicit = before ++ (interval, found) :: after ∧
        interval.contains whole = .ok true ∧
        (∀ earlier ∈ before, earlier.1.contains whole = .ok false) ∧
        (∀ mixed read_mixed, read mixed = .ok read_mixed →
          explicitSegments text <+: explicitSegments mixed →
          ∀ language, selectFrom mixed count language = .ok (.explicit interval found)) ∧
        ∀ more read_more, read more = .ok read_more →
          ∀ language, selectFrom (text ++ '|' :: more) count language =
            .ok (.explicit interval found) := by
  refine ⟨?_, ?_, ?_⟩
  · intro hcount language
    obtain ⟨place, hplace⟩ := Number.exists_place hcount
    exact selectAlike_of_choose?_eq hread hother hplace
      (choose?_of_sameSegments hread hother hsame place language)
  · intro hcount language
    exact ⟨selectFrom_of_isSignaling hread hcount language,
      selectFrom_of_isSignaling hother hcount language⟩
  · rintro whole hwhole ⟨clause, hmem, hclause⟩
    obtain ⟨place, hpoint⟩ : ∃ place, whole.point = .ok place := by
      cases hpoint : whole.point with
      | error _ => simp [Interval.contains, hpoint, Except.map] at hclause
      | ok place => exact ⟨place, rfl⟩
    have hplace : count.place = .ok place := by
      rw [Number.place, hwhole]
      exact hpoint
    have hsome : (message.explicit.find? fun clause => clause.1.shape.contains place).isSome := by
      rw [contains_of_point hpoint] at hclause
      exact List.find?_isSome.2 ⟨clause, hmem, Except.ok.inj hclause⟩
    obtain ⟨⟨interval, found⟩, hfind⟩ := Option.isSome_iff_exists.1 hsome
    obtain ⟨hcontains, before, after, hexplicit, hbefore⟩ := List.find?_eq_some_iff_append.1 hfind
    refine ⟨before, interval, found, after, hexplicit, ?_, ?_, ?_, ?_⟩
    · rw [contains_of_point hpoint]
      exact congrArg Except.ok hcontains
    · intro earlier hearlier
      rw [contains_of_point hpoint]
      exact congrArg Except.ok (by simpa using hbefore earlier hearlier)
    · intro mixed read_mixed hmixed hfront language
      exact selectFrom_of_prefix hread hmixed hfront hplace hfind language
    · intro more read_more hmore language
      have hfront : explicitSegments text <+: explicitSegments (text ++ '|' :: more) := by
        rw [explicitSegments_append]
        exact List.prefix_append _ _
      exact selectFrom_of_prefix hread (read_append hread hmore) hfront hplace hfind language

def exactlyOne : Clause :=
  .explicit ⟨"[1,1]", .range (.ofScientific false 1 0) (.ofScientific false 1 0) true true⟩ "one"

theorem read_oneFirst :
    read "[1,1] one|other" = .ok ⟨"[1,1] one|other", [exactlyOne, .standard "other"]⟩ :=
  rfl

theorem read_oneLast :
    read "other|[1,1] one" = .ok ⟨"other|[1,1] one", [.standard "other", exactlyOne]⟩ :=
  rfl

theorem sameSegments_one : SameSegments "[1,1] one|other" "other|[1,1] one" :=
  ⟨by decide +kernel, by decide +kernel⟩

/-- Nothing that counts, nothing that compares, and a count with a clause of its own. -/
theorem selection_ignores_interleaving_one :
    (∃ choice, selectFrom "[1,1] one|other" (.binary .nan) "ja_JP" = .ok choice ∧
      selectFrom "other|[1,1] one" (.binary .nan) "ja_JP" = .ok choice) ∧
    selectFrom "other|[1,1] one" (.decimal (.nan true true 7)) "en_US" = .error .incomparable ∧
    ∃ interval found, ∀ language,
      selectFrom "[1,1] one|other|[0,2] few|many" (.integer 1) language =
        .ok (.explicit interval found) := by
  obtain ⟨hnan, -, -⟩ :=
    selection_ignores_interleaving read_oneFirst read_oneLast sameSegments_one (.binary .nan)
  obtain ⟨-, hsignaling, -⟩ := selection_ignores_interleaving read_oneFirst read_oneLast
    sameSegments_one (.decimal (.nan true true 7))
  obtain ⟨-, -, hfirst⟩ :=
    selection_ignores_interleaving read_oneFirst read_oneLast sameSegments_one (.integer 1)
  have htaken : ∃ clause ∈ (Message.mk "[1,1] one|other" [exactlyOne, .standard "other"]).explicit,
      clause.1.contains (.integer 1) = .ok true :=
    ⟨_, List.mem_cons_self, by decide +kernel⟩
  have hmore : read "[0,2] few|many" = .ok ⟨"[0,2] few|many",
      [.explicit ⟨"[0,2]", .range (.ofScientific false 0 0) (.ofScientific false 2 0) true true⟩
        "few", .standard "many"]⟩ := rfl
  obtain ⟨before, interval, found, after, -, -, -, -, hbehind⟩ := hfirst _ rfl htaken
  refine ⟨?_, (hsignaling rfl "en_US").2, interval, found, hbehind _ _ hmore⟩
  have hform : selectFrom "[1,1] one|other" (.binary .nan) "ja_JP" = .ok (.form 0 "other") := by
    decide +kernel
  cases hnan rfl "ja_JP" with
  | choice choice hchoice hother => exact ⟨choice, hchoice, hother⟩
  | noForm _ hnone =>
    obtain ⟨diagnostic, hnone⟩ := hnone
    rw [hform] at hnone
    cases hnone
  | tooManyDigits hcount => cases hcount

/-- A signaling NaN gets neither a text nor the error that there is no form for it. -/
theorem selectFrom_signaling :
    (∃ message, read "[1,1] one|other" = .ok message) ∧
    (∃ message, read "other|[1,1] one" = .ok message) ∧
    SameSegments "[1,1] one|other" "other|[1,1] one" ∧
    selectFrom "[1,1] one|other" (.decimal (.nan false true 0)) "en_US" =
      .error .incomparable ∧
    selectFrom "other|[1,1] one" (.decimal (.nan false true 0)) "en_US" =
      .error .incomparable :=
  ⟨⟨_, read_oneFirst⟩, ⟨_, read_oneLast⟩, sameSegments_one, rfl, rfl⟩

end Message
end Phrasebook
