import Phrasebook.Proofs.Placeholder.Writable
import Phrasebook.Proofs.Session.Perform

/-!
A plural translation looks for the clause that a key has for the count, and fills that clause. Where
no clause is found, the arguments are not looked at. A clause that is found is filled if and only if
the count and everything that the arguments bind can be written.
-/
namespace Phrasebook.Session

open Placeholder

def clauseFor (ref : TranslatorRef) (key : Text) (count : Number) : Action Text := do
  let (text, language) ← lookup ref key
  chooseText text count language

def fillClause (key : Text) (count : Number) (args : Args) (clause : Text) : Action Text := do
  let table ← tableFor clause args [countToken]
  let inserted ← insertedCount count
  let result := substitute clause (table.set countToken inserted)
  emit (.resolvedPlural key count result)
  return result

theorem translatePlural_eq (ref : TranslatorRef) (key : Text) (count : Number) (args : Args) :
    translatePlural ref key count args = clauseFor ref key count >>= fillClause key count args := by
  simp only [translatePlural, clauseFor, bind_assoc]
  rfl

/-- A clause filled with the arguments and the count, whether or not these can be written. -/
def filled (clause : Text) (args : Args) (count : Number) : Text :=
  substitute clause ((args.spelled clause [countToken]).set countToken (Value.number count).reading)

section Filling

variable {clause : Text} {args : Args} {count : Number}

theorem perform_tableFor (session : Session) {reserved : List Text}
    (h : args.isWritable clause reserved) :
    session.perform (tableFor clause args reserved) =
      (.ok (args.spelled clause reserved), session) := by
  rw [tableFor, table_of_isWritable h]
  rfl

theorem perform_tableFor_error (session : Session) {reserved : List Text}
    (hargs : ∀ kind, args ≠ .unsuitable kind) (h : args.isWritable clause reserved = false) :
    session.perform (tableFor clause args reserved) = (.error .tooManyDigits, session) := by
  rw [tableFor, table_of_not_isWritable hargs h]
  rfl

theorem perform_insertedCount (session : Session) (h : count.isWritable) :
    session.perform (insertedCount count) = (.ok (Value.number count).reading, session) := by
  have hinserted : (Value.number count).inserted = .ok (Value.number count).reading := if_pos h
  rw [insertedCount, hinserted]
  rfl

theorem perform_insertedCount_error (session : Session) (h : count.isWritable = false) :
    session.perform (insertedCount count) = (.error .tooManyDigits, session) := by
  have hinserted : (Value.number count).inserted = .error ⟨⟩ := if_neg (Bool.eq_false_iff.1 h)
  rw [insertedCount, hinserted]
  rfl

theorem perform_fillClause (session : Session) (key : Text) (hcount : count.isWritable)
    (hargs : args.isWritable clause [countToken]) :
    session.perform (fillClause key count args clause) =
      (.ok (filled clause args count), { session with
        log := session.log ++ [.resolvedPlural key count (filled clause args count)] }) := by
  simp only [fillClause, perform_bind, perform_tableFor session hargs,
    perform_insertedCount session hcount, perform_emit, perform_pure]
  rfl

theorem perform_fillClause_error (session : Session) (key : Text)
    (hargs : ∀ kind, args ≠ .unsuitable kind)
    (h : ¬ (count.isWritable ∧ args.isWritable clause [countToken])) :
    session.perform (fillClause key count args clause) = (.error .tooManyDigits, session) := by
  rw [fillClause, perform_bind]
  cases hwritable : args.isWritable clause [countToken] with
  | false => rw [perform_tableFor_error session hargs hwritable]
  | true =>
    have hcount : count.isWritable = false :=
      Bool.eq_false_iff.2 fun hcount => h ⟨hcount, hwritable⟩
    simp only [perform_tableFor session hwritable, perform_bind,
      perform_insertedCount_error session hcount]

end Filling

section Translating

variable {session later : Session} {ref : TranslatorRef} {key clause : Text} {count : Number}

theorem perform_translatePlural_of_clause
    (h : session.perform (clauseFor ref key count) = (.ok clause, later)) (args : Args) :
    session.perform (translatePlural ref key count args) =
      later.perform (fillClause key count args clause) := by
  rw [translatePlural_eq, perform_bind, h]

/-- With a clause at hand, a translation fails only for what cannot be written. -/
theorem translatePlural_isOk_iff
    (h : session.perform (clauseFor ref key count) = (.ok clause, later)) {args : Args}
    (hargs : ∀ kind, args ≠ .unsuitable kind) :
    ((∃ result last, session.perform (translatePlural ref key count args) = (.ok result, last)) ↔
      count.isWritable ∧ args.isWritable clause [countToken]) ∧
    (¬ (count.isWritable ∧ args.isWritable clause [countToken]) →
      session.perform (translatePlural ref key count args) = (.error .tooManyDigits, later)) := by
  rw [perform_translatePlural_of_clause h]
  refine ⟨⟨?_, ?_⟩, perform_fillClause_error later key hargs⟩
  · rintro ⟨result, last, hresult⟩
    refine Decidable.byContradiction fun hnot => ?_
    rw [perform_fillClause_error later key hargs hnot] at hresult
    cases hresult
  · rintro ⟨hcount, hwritable⟩
    exact ⟨_, _, perform_fillClause later key hcount hwritable⟩

theorem perform_translatePlural_of_long
    (h : session.perform (clauseFor ref key count) = (.ok clause, later)) {args : Args}
    (hargs : ∀ kind, args ≠ .unsuitable kind) (hlong : args.isWritable clause [countToken] = false) :
    session.perform (translatePlural ref key count args) = (.error .tooManyDigits, later) :=
  (translatePlural_isOk_iff h hargs).2 fun hall => Bool.eq_false_iff.1 hlong hall.2

end Translating

end Phrasebook.Session
