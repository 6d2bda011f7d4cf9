import Phrasebook.Proofs.Message.Reading
import Phrasebook.Proofs.Session.Change
import Phrasebook.Proofs.Session.Clause

/-!
A message that passes its review is safe to resolve. Reading it succeeds, because the review found
no error. If no explicit clause takes the count, the plural form of the count does: there are as
many standard clauses as the language has forms, because the review did not complain of their
number, or there is a single one, which serves every count. Only a signaling NaN has no place among
the numbers. What is filled into the clause must be writable: integers of very many digits are not.
-/
namespace Phrasebook

/-- A signaling NaN, which must not be compared. -/
def Number.isSignaling : Number → Bool
  | .decimal (.nan _ signaling _) => signaling
  | _ => false

theorem Number.exists_toBinary64? {d : Decimal} (h : (Number.decimal d).isSignaling = false) :
    ∃ x, d.toBinary64? = some x := by
  cases d with
  | finite negative coefficient exponent => exact ⟨_, rfl⟩
  | infinite negative => exact ⟨_, rfl⟩
  | nan negative signaling payload =>
    cases signaling with
    | false => exact ⟨_, rfl⟩
    | true => cases h

theorem Number.exists_point {number : Number} (h : number.isSignaling = false) :
    ∃ place, number.point = .ok place := by
  cases number with
  | truth b => exact ⟨_, rfl⟩
  | integer n => exact ⟨_, rfl⟩
  | binary x => exact ⟨_, rfl⟩
  | decimal d =>
    obtain ⟨x, hx⟩ := Number.exists_toBinary64? h
    exact ⟨x.point, by simp [Number.point, hx]⟩

/-- Cutting off the fraction keeps a number one that can be compared. -/
theorem Number.exists_whole {number : Number} (h : number.isSignaling = false) :
    ∃ whole, number.whole = .ok whole ∧ whole.isSignaling = false := by
  cases number with
  | truth b => exact ⟨_, rfl, rfl⟩
  | integer n => exact ⟨_, rfl, rfl⟩
  | binary x =>
    refine ⟨_, rfl, ?_⟩
    by_cases hx : x.isFinite
    · rw [if_pos hx]
      rfl
    · rw [if_neg hx]
      rfl
  | decimal d =>
    obtain ⟨x, hx⟩ := Number.exists_toBinary64? h
    refine ⟨if x.isFinite then .integer d.truncate else .decimal d, by simp [Number.whole, hx], ?_⟩
    by_cases hfinite : x.isFinite
    · rw [if_pos hfinite]
      rfl
    · rw [if_neg hfinite]
      exact h

/-- Every number has a plural form in every language, and it is one that the language has. -/
theorem exists_pluralIndex (language : Text) {number : Number} (h : number.isSignaling = false) :
    ∃ index, pluralIndex language number = .ok index ∧ index < pluralForms language := by
  obtain ⟨place, hplace⟩ := Number.exists_point h
  have hindex : pluralIndex language number =
      .ok ((PluralFamily.ofLanguage language).index place) := by
    rw [pluralIndex, hplace]
    rfl
  exact ⟨_, hindex, pluralIndex_lt_pluralForms hindex⟩

namespace Message

theorem standardCount_pos {text segment : Text} (hmem : segment ∈ segments text)
    (hscan : Interval.scan segment = .ok none) : 0 < standardCount text := by
  have hscans : .ok none ∈ scans text := by
    rw [← hscan]
    exact List.mem_map_of_mem hmem
  exact List.countP_pos_iff.2 ⟨.ok none, hscans, rfl⟩

/-- What a review without complaints of the number of standard clauses says about it. -/
theorem standard_of_review {text language : Text} {message : Message}
    (hread : read text = .ok message)
    (hwarnings : ∀ warning ∈ (review text language).warnings,
      warning.code ≠ DiagnosticCode.pluralFormCountMismatch.name)
    (hstandard : ∃ segment ∈ segments text, Interval.scan segment = .ok none) :
    message.standard.length = pluralForms language ∨
      ∃ only, message.clauses = [.standard only] := by
  obtain ⟨segment, hmem, hscan⟩ := hstandard
  have hpos : 0 < standardCount text := standardCount_pos hmem hscan
  have hstandard := length_standard_of_read hread
  have hclauses := length_clauses_of_read hread
  by_cases hmany : 1 < (segments text).length
  · left
    rw [hstandard]
    by_contra hne
    let mismatch := warningOf
      (.pluralFormCountMismatch (standardCount text) (pluralForms language) language) none
    have hwarned : formCountWarnings text language = [mismatch] :=
      if_pos ⟨hmany, Nat.ne_of_gt hpos, hne⟩
    have hmismatch : mismatch ∈ (review text language).warnings := by
      refine List.mem_append_right _ ?_
      rw [hwarned]
      exact List.mem_cons_self
    exact hwarnings mismatch hmismatch rfl
  · right
    have hone : message.clauses.length = 1 := by
      have hsegments : 0 < (segments text).length := List.length_pos_of_mem hmem
      omega
    obtain ⟨clause, hclause⟩ := List.length_eq_one_iff.1 hone
    cases clause with
    | standard only => exact ⟨only, hclause⟩
    | explicit interval only =>
      simp only [standard, hclause, List.filterMap_cons, List.filterMap_nil,
        List.length_nil] at hstandard
      omega

/-- There is a standard clause for every form, or one for all. -/
theorem exists_choice {message : Message} {language : Text}
    (h : message.standard.length = pluralForms language ∨
      ∃ only, message.clauses = [.standard only])
    (place : Point) : ∃ choice, message.choose? place language = some choice := by
  unfold choose?
  cases hfind : message.explicit.find? fun clause => clause.1.shape.contains place with
  | some found => exact ⟨_, rfl⟩
  | none =>
    cases hform : message.standard[(PluralFamily.ofLanguage language).index place]? with
    | some text =>
      simp only [hform]
      exact ⟨_, rfl⟩
    | none =>
      rcases h with hlength | ⟨only, hclauses⟩
      · have hindex := PluralFamily.index_lt_forms (PluralFamily.ofLanguage language) place
        have hover := List.getElem?_eq_none_iff.1 hform
        rw [hlength] at hover
        exact absurd hindex (Nat.not_lt.2 hover)
      · exact ⟨.only only, by simp only [hform, hclauses]⟩

/-- A message that a review has nothing against has a clause for every count. -/
theorem exists_selectFrom_of_review {text language : Text}
    (herrors : (review text language).errors = [])
    (hwarnings : ∀ warning ∈ (review text language).warnings,
      warning.code ≠ DiagnosticCode.pluralFormCountMismatch.name)
    (hstandard : ∃ segment ∈ segments text, Interval.scan segment = .ok none) {count : Number}
    (hcount : count.isSignaling = false) :
    ∃ choice, selectFrom text count language = .ok choice := by
  obtain ⟨message, hread⟩ := (reviewErrors_eq_nil_iff text).1 herrors
  obtain ⟨whole, hwhole, hsignaling⟩ := Number.exists_whole hcount
  obtain ⟨place, hplace⟩ := Number.exists_point hsignaling
  obtain ⟨choice, hchoice⟩ := exists_choice (standard_of_review hread hwarnings hstandard) place
  exact ⟨choice, by simp [selectFrom, hread, select, hwhole, hplace, hchoice]⟩

end Message

namespace Session

variable {session : Session}

theorem perform_lookup (hidle : session.Idle) {ref : TranslatorRef} {translator : Translator}
    (hget : session.translators[ref]? = some translator) {key text : Text}
    (hstored : session.perform (getText translator.chain key) = (.ok (some text), session)) :
    session.perform (lookup ref key) = (.ok (text, translator.language), session) := by
  have hfound : session.perform (reading ref (getText translator.chain key)) =
      (.ok (some text), session) := by
    rw [perform_reading hidle (LockBlind.getText _ _), hstored]
  simp only [lookup, perform_bind, perform_translator?, hget, resolve, hfound, perform_pure]

theorem perform_chooseText {text language : Text} {count : Number} {choice : Choice}
    (h : Message.selectFrom text count language = .ok choice) (session : Session) :
    ∃ later, session.perform (chooseText text count language) = (.ok choice.text, later) := by
  simp only [chooseText, h]
  cases choice.event? count language with
  | none => exact ⟨session, rfl⟩
  | some event => exact ⟨_, rfl⟩

/-- A choice is made for a stored message as for the message itself. -/
theorem exists_clauseFor (hidle : session.Idle) {ref : TranslatorRef} {translator : Translator}
    (hget : session.translators[ref]? = some translator) {key text : Text}
    (hstored : session.perform (getText translator.chain key) = (.ok (some text), session))
    {count : Number} {choice : Choice}
    (hchoice : Message.selectFrom text count translator.language = .ok choice) :
    ∃ chosen, session.perform (clauseFor ref key count) = (.ok choice.text, chosen) := by
  simp only [clauseFor, perform_bind, perform_lookup hidle hget hstored]
  exact perform_chooseText hchoice session

/-- Validating a stored message gives its review. If there are no errors in it and no complaint of
the number of forms, and some clause is standard, then the message has a clause for every count, and
the clause is filled with all arguments that can be written. It has because every number has a form
that the language has. -/
theorem Reachable.translatePlural_of_review (hreachable : session.Reachable) {ref : TranslatorRef}
    {translator : Translator} (hget : session.translators[ref]? = some translator)
    {key text : Text}
    (hstored : session.perform (getText translator.chain key) = (.ok (some text), session)) :
    (∃ report later, session.perform (reviewText ref key) = (.ok report, later) ∧
      (report.errors = [] →
        (∀ warning ∈ report.warnings,
          warning.code ≠ DiagnosticCode.pluralFormCountMismatch.name) →
        (∃ segment ∈ Message.segments text, Interval.scan segment = .ok none) →
        ∀ count : Number, count.isSignaling = false →
          ∃ clause chosen, session.perform (clauseFor ref key count) = (.ok clause, chosen) ∧
          ∀ args : Placeholder.Args, (∀ kind, args ≠ .unsuitable kind) →
            ((∃ result last,
                session.perform (translatePlural ref key count args) = (.ok result, last)) ↔
              count.isWritable ∧ args.isWritable clause [countToken]) ∧
            (¬ (count.isWritable ∧ args.isWritable clause [countToken]) →
              session.perform (translatePlural ref key count args) =
                (.error .tooManyDigits, chosen)))) ∧
    ∀ (language : Text) (number : Number), number.isSignaling = false →
      ∃ index, pluralIndex language number = .ok index ∧ index < pluralForms language := by
  have hidle := hreachable.sound.idle
  constructor
  · have hreview : ∃ later, session.perform (reviewText ref key) =
        (.ok (Message.review text translator.language), later) := by
      simp only [reviewText, perform_bind, perform_lookup hidle hget hstored, perform_emit,
        perform_pure]
      exact ⟨_, rfl⟩
    obtain ⟨later, hlater⟩ := hreview
    refine ⟨Message.review text translator.language, later, hlater, ?_⟩
    intro herrors hwarnings hstandard count hcount
    obtain ⟨choice, hchoice⟩ :=
      Message.exists_selectFrom_of_review herrors hwarnings hstandard hcount
    obtain ⟨chosen, hchosen⟩ := exists_clauseFor hidle hget hstored hchoice
    exact ⟨choice.text, chosen, hchosen, fun args hargs => translatePlural_isOk_iff hchosen hargs⟩
  · intro language number hnumber
    exact exists_pluralIndex language hnumber

def shop : Session :=
  (({} : Session).after
    (.createSimple "en_US" [("cart", "[0,0] empty|%count% item|%count% items")])).after
      (.createTranslator "en_US" (.one (.dictionary 0)) {})

theorem reachable_shop : shop.Reachable := by
  refine .step _ (.step _ .start trivial) ?_
  rintro item hitem ref rfl
  obtain rfl : ref = 0 := by simpa [Source.items] using hitem
  decide

def cart : Text := "[0,0] empty|%count% item|%count% items"

/-- A count that is no number has a form all the same, and so has a negative one. -/
theorem translatePlural_of_review_shop :
    (∃ report later, shop.perform (reviewText 0 "cart") = (.ok report, later) ∧
      report.errors = [] ∧ report.warnings = []) ∧
    (∃ result later,
      shop.perform (translatePlural 0 "cart" (.binary .nan) .none) = (.ok result, later)) ∧
    ∃ index, pluralIndex "ar_EG" (.integer (-3)) = .ok index ∧ index < pluralForms "ar_EG" := by
  let translator : Translator :=
    { language := "en_US", silent := false, chain := 1, lock := none, observer := none }
  have hget : shop.translators[0]? = some translator := rfl
  have hstored : shop.perform (getText translator.chain "cart") = (.ok (some cart), shop) := rfl
  obtain ⟨⟨report, later, hreport, hresolves⟩, hforms⟩ :=
    reachable_shop.translatePlural_of_review hget hstored
  have hreview : report = {} := Except.ok.inj (congrArg Prod.fst hreport).symm
  have hstandard : ∃ segment ∈ Message.segments cart, Interval.scan segment = .ok none :=
    ⟨"%count% item", List.mem_cons_of_mem _ List.mem_cons_self, rfl⟩
  have hwarnings : ∀ warning ∈ report.warnings,
      warning.code ≠ DiagnosticCode.pluralFormCountMismatch.name := by
    rw [hreview]
    exact fun warning hwarning => absurd hwarning List.not_mem_nil
  refine ⟨⟨report, later, hreport, by rw [hreview], by rw [hreview]⟩, ?_, hforms _ _ rfl⟩
  obtain ⟨clause, chosen, -, hfills⟩ :=
    hresolves (by rw [hreview]) hwarnings hstandard (.binary .nan) rfl
  exact (hfills .none nofun).1.2 ⟨rfl, rfl⟩

/-- A message that passes its review is not resolved with a number that is too long, even one that
it has no token for. A signaling NaN has no plural form. -/
theorem cart_unresolved :
    shop.Reachable ∧
      (shop.perform (getText 1 "cart")).1 = .ok (some cart) ∧
      (shop.perform (reviewText 0 "cart")).1 = .ok {} ∧
      (∃ segment ∈ Message.segments cart, Interval.scan segment = .ok none) ∧
      (shop.perform (translatePlural 0 "cart" (.integer 2)
        (.named [(.text "x", .number (.integer tooLong))]))).1 =
          .error .tooManyDigits ∧
      pluralIndex "ja" (.decimal (.nan false true 0)) = .error ⟨⟩ := by
  refine ⟨reachable_shop, rfl, rfl,
    ⟨"%count% item", List.mem_cons_of_mem _ List.mem_cons_self, rfl⟩, ?_, rfl⟩
  have hclause : (shop.perform (clauseFor 0 "cart" (.integer 2))).1 = .ok "%count% items" := by
    decide +kernel
  rw [perform_translatePlural_of_long (Prod.ext hclause rfl) (Placeholder.Args.named_suitable _)
    (Placeholder.Args.not_isWritable_named List.mem_cons_self
      (Placeholder.isWritableEntry_tooLong "x") ..)]

end Session
end Phrasebook
