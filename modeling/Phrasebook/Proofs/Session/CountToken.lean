import Phrasebook.Proofs.Placeholder.Positional
import Phrasebook.Proofs.Session.Clause
import Phrasebook.Proofs.Session.Operation

/-!
The token for the count. The count is set last and under its own token, so whatever the arguments
have for this token is lost, though it is written before, and values without names leave the token
out.
-/
namespace Phrasebook

namespace Placeholder

def without (token : Text) (entries : List (Value × Value)) : List (Value × Value) :=
  entries.filter fun entry => wrap entry.1.words ≠ token

/-- What is set afterwards need not have been there. -/
theorem substitute_set_without (text token written : Text) (entries : List (Value × Value)) :
    substitute text ((Table.spelled (without token entries)).set token written) =
      substitute text ((Table.spelled entries).set token written) := by
  apply substitute_congr
  intro key
  rw [OrderedMap.get?_set, OrderedMap.get?_set]
  split
  · rfl
  · next hne =>
    exact get?_spelled_filter (p := fun key => decide (key ≠ token))
      (decide_eq_true (Ne.symm hne)) entries

/-- Leaving out entries that can be written does not change whether all can. -/
theorem isWritable_without {token : Text} {entries : List (Value × Value)}
    (h : ∀ entry ∈ entries, wrap entry.1.words = token → isWritableEntry entry) :
    (without token entries).all isWritableEntry = entries.all isWritableEntry := by
  rw [Bool.eq_iff_iff, List.all_eq_true, List.all_eq_true]
  constructor
  · intro hkept entry hentry
    by_cases htoken : wrap entry.1.words = token
    · exact h entry hentry htoken
    · exact hkept entry (List.mem_filter.2 ⟨hentry, decide_eq_true htoken⟩)
  · exact fun hall entry hentry => hall entry (List.mem_filter.1 hentry).1

theorem not_mem_freeTokens (text token : Text) : token ∉ freeTokens text [token] := by
  simp [freeTokens]

/-- Setting a reserved token adds it to the free ones. -/
theorem get?_set_paired_eq_some_iff {text token written key value : Text}
    {values : List Value} :
    ((Table.paired (freeTokens text [token]) values).set token written).get? key = some value ↔
      (key = token ∧ value = written) ∨
        ∃ (i : Nat) (given : Value), (freeTokens text [token])[i]? = some key ∧
          values[i]? = some given ∧ value = given.reading := by
  rw [OrderedMap.get?_set]
  by_cases hkey : token = key
  · subst hkey
    have hnone : ¬ ∃ (i : Nat) (given : Value), (freeTokens text [token])[i]? = some token ∧
        values[i]? = some given ∧ value = given.reading := by
      rintro ⟨i, -, htoken, -⟩
      exact not_mem_freeTokens text token (List.mem_of_getElem? htoken)
    rw [if_pos rfl, or_iff_left hnone, and_iff_right rfl, Option.some_inj, eq_comm]
  · have hother : ¬ (key = token ∧ value = written) := fun h => hkey h.1.symm
    rw [if_neg hkey, or_iff_right hother, get?_paired_eq_some_iff]

end Placeholder

namespace Session

open Placeholder

section Filling

variable (session : Session) (key clause : Text) (count : Number)

theorem perform_fillClause_without {entries : List (Value × Value)}
    (h : ∀ entry ∈ entries, wrap entry.1.words = countToken → isWritableEntry entry) :
    session.perform (fillClause key count (.named entries) clause) =
      session.perform (fillClause key count (.named (without countToken entries)) clause) := by
  have hwritable : (Args.named (without countToken entries)).isWritable clause [countToken] =
      (Args.named entries).isWritable clause [countToken] := isWritable_without h
  have hfilled : filled clause (.named (without countToken entries)) count =
      filled clause (.named entries) count := substitute_set_without ..
  by_cases hall : count.isWritable ∧ (Args.named entries).isWritable clause [countToken]
  · rw [perform_fillClause session key hall.1 hall.2,
      perform_fillClause session key hall.1 (hwritable.trans hall.2), hfilled]
  · rw [perform_fillClause_error session key (Args.named_suitable _) hall,
      perform_fillClause_error session key (Args.named_suitable _) (by rwa [hwritable])]

/-- Values without names are written as the mapping of the free tokens to them. -/
theorem fillClause_positional (values : List Value) :
    fillClause key count (.positional values) clause =
      fillClause key count
        (.named (((freeTokens clause [countToken]).map Value.text).zip values)) clause := by
  have htable := ofPositional_eq_ofNamed clause [countToken] id
    (fun token htoken => wrap_token (mem_tokens_of_free htoken)) values
  simp only [fillClause, tableFor, table, htable]
  rfl

theorem perform_fillClause_positional (values : List Value) :
    (session.perform (fillClause key count (.positional values) clause)).1 =
      if count.isWritable ∧
          ∀ value ∈ values.take (freeTokens clause [countToken]).length, value.isWritable then
        .ok (filled clause (.positional values) count)
      else .error .tooManyDigits := by
  have hargs : (Args.positional values).isWritable clause [countToken] ↔
      ∀ value ∈ values.take (freeTokens clause [countToken]).length, value.isWritable :=
    List.all_eq_true
  split
  · next hall => rw [perform_fillClause session key hall.1 (hargs.2 hall.2)]
  · next hnot =>
    have hlong := mt (And.imp_right hargs.1) hnot
    rw [perform_fillClause_error session key (Args.positional_suitable _) hlong]

end Filling

/-- Whatever a mapping has for the token of the count makes no difference to a translation, if it
can be written; the translation fails for whatever cannot. Values without names go to the other
tokens of the clause in turn: they are the mapping of these tokens to the values, and the text is
the clause with these tokens and the one of the count filled. Without a clause the translation fails
in the same way for all arguments. -/
theorem count_is_not_overridden (session : Session) (ref : TranslatorRef) (key : Text)
    (count : Number) :
    (∀ entries, (∀ entry ∈ entries, wrap entry.1.words = countToken → isWritableEntry entry) →
      session.perform (translatePlural ref key count (.named entries)) =
        session.perform (translatePlural ref key count
          (.named (entries.filter fun entry => wrap entry.1.words ≠ countToken)))) ∧
    (∀ clause later, session.perform (clauseFor ref key count) = (.ok clause, later) →
      (∀ entries, ∀ entry ∈ entries, isWritableEntry entry = false →
        session.perform (translatePlural ref key count (.named entries)) =
          (.error .tooManyDigits, later)) ∧
      ∀ values, session.perform (translatePlural ref key count (.positional values)) =
          session.perform (translatePlural ref key count
            (.named (((freeTokens clause [countToken]).map Value.text).zip values))) ∧
        ∃ table : Table,
          (∀ token written, table.get? token = some written ↔
            (token = countToken ∧ written = (Value.number count).reading) ∨
              ∃ (i : Nat) (value : Value), (freeTokens clause [countToken])[i]? = some token ∧
                values[i]? = some value ∧ written = value.reading) ∧
          (session.perform (translatePlural ref key count (.positional values))).1 =
            if count.isWritable ∧
                ∀ value ∈ values.take (freeTokens clause [countToken]).length, value.isWritable then
              .ok (substitute clause table)
            else .error .tooManyDigits) ∧
    ∀ failure later, session.perform (clauseFor ref key count) = (.error failure, later) →
      ∀ args, session.perform (translatePlural ref key count args) = (.error failure, later) := by
  refine ⟨?_, ?_, ?_⟩
  · intro entries hwritable
    rw [translatePlural_eq, translatePlural_eq, perform_bind, perform_bind]
    split
    · exact perform_fillClause_without _ key _ count hwritable
    · rfl
  · intro clause later hclause
    refine ⟨fun entries entry hentry hlong => ?_, fun values => ?_⟩
    · exact perform_translatePlural_of_long hclause (Args.named_suitable entries)
        (Args.not_isWritable_named hentry hlong ..)
    · rw [perform_translatePlural_of_clause hclause, perform_translatePlural_of_clause hclause,
        fillClause_positional]
      refine ⟨rfl, _, fun token written => get?_set_paired_eq_some_iff, ?_⟩
      rw [← fillClause_positional, perform_fillClause_positional]
      rfl
  · intro failure later hclause args
    rw [translatePlural_eq, perform_bind, hclause]

def pantry : Session :=
  (({} : Session).after (.createSimple "en_US"
    [("jar", "%count% %fruit% in %place%: %count%|%count% %fruit%s in %place%: %count%")])).after
      (.createTranslator "en_US" (.one (.dictionary 0)) {})

theorem clauseFor_pantry : (pantry.perform (clauseFor 0 "jar" (.integer 3))).1 =
    .ok "%count% %fruit%s in %place%: %count%" := by
  decide +kernel

/-- Two spellings of the name for the count are lost, and a third value has no token. -/
theorem count_is_not_overridden_pantry :
    pantry.perform (translatePlural 0 "jar" (.integer 3) (.named
        [(.text "count", .text "no"), (.text "fruit", .text "plum"),
          (.text "%count%", .text "few")])) =
      pantry.perform (translatePlural 0 "jar" (.integer 3)
        (.named [(.text "fruit", .text "plum")])) ∧
    (∃ later, pantry.perform (clauseFor 0 "jar" (.integer 3)) =
        (.ok "%count% %fruit%s in %place%: %count%", later)) ∧
      pantry.perform (translatePlural 0 "jar" (.integer 3)
          (.positional [.text "plum", .text "jars", .text "left"])) =
        pantry.perform (translatePlural 0 "jar" (.integer 3)
          (.named [(.text "%fruit%", .text "plum"), (.text "%place%", .text "jars")])) ∧
    (∃ later, pantry.perform (clauseFor 0 "box" (.integer 3)) =
        (.error (.fault (.missingTranslation "box" "en_US")), later)) ∧
      (pantry.perform (translatePlural 0 "box" (.integer 3) (.unsuitable "str"))).1 =
        .error (.fault (.missingTranslation "box" "en_US")) := by
  obtain ⟨hnamed, hclause, -⟩ := count_is_not_overridden pantry 0 "jar" (.integer 3)
  obtain ⟨-, -, hmissing⟩ := count_is_not_overridden pantry 0 "box" (.integer 3)
  refine ⟨hnamed _ ?_, ⟨_, Prod.ext clauseFor_pantry rfl⟩,
    ((hclause _ _ (Prod.ext clauseFor_pantry rfl)).2 _).1, ⟨_, rfl⟩, ?_⟩
  · simp [isWritableEntry, Value.isWritable]
  · rw [hmissing _ _ rfl]

/-- A value for the token of the count is written before it is lost, so a translation can fail for
it. A text is no collection of values, though it goes for one elsewhere. -/
theorem lost_value_too_long :
    (pantry.perform (translatePlural 0 "jar" (.integer 3)
      (.named [(.text "count", .number (.integer tooLong))]))).1 =
        .error .tooManyDigits ∧
    (pantry.perform (translatePlural 0 "jar" (.integer 3) (.named []))).1 =
      .ok "3 %fruit%s in %place%: 3" ∧
    (pantry.perform (translatePlural 0 "jar" (.integer 3) (.unsuitable "str"))).1 =
      .error (.unsuitable "str") := by
  refine ⟨?_, by decide +kernel, by decide +kernel⟩
  rw [perform_translatePlural_of_long (Prod.ext clauseFor_pantry rfl) (Args.named_suitable _)
    (Args.not_isWritable_named List.mem_cons_self (isWritableEntry_tooLong "count") ..)]

end Session
end Phrasebook
