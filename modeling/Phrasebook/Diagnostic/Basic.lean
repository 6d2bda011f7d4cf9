import Phrasebook.Number

/-!
A diagnostic describes one problem: what kind it is, in a sentence, and where known the place in
the message text, a hint, the key and the language. Codes are grouped by thousands: look-up,
selection, syntax, locales and formatting, and the warnings of a review.
-/
namespace Phrasebook

inductive DiagnosticCode
  | missingTranslation
  | pluralFormNotFound
  | invalidInterval
  | invalidLocale
  | unknownLanguage
  | formattingFailed
  | currencyAmountNotInteger
  | pluralFormCountMismatch
  | duplicateInterval
deriving DecidableEq, Repr

namespace DiagnosticCode

def all : List DiagnosticCode :=
  [missingTranslation, pluralFormNotFound, invalidInterval, invalidLocale, unknownLanguage,
    formattingFailed, currencyAmountNotInteger, pluralFormCountMismatch, duplicateInterval]

def name : DiagnosticCode → Text
  | missingTranslation => "MISSING_TRANSLATION"
  | pluralFormNotFound => "PLURAL_FORM_NOT_FOUND"
  | invalidInterval => "INVALID_INTERVAL"
  | invalidLocale => "INVALID_LOCALE"
  | unknownLanguage => "UNKNOWN_LANGUAGE"
  | formattingFailed => "FORMATTING_FAILED"
  | currencyAmountNotInteger => "CURRENCY_AMOUNT_NOT_INTEGER"
  | pluralFormCountMismatch => "PLURAL_FORM_COUNT_MISMATCH"
  | duplicateInterval => "DUPLICATE_INTERVAL"

def value : DiagnosticCode → Nat
  | missingTranslation => 1001
  | pluralFormNotFound => 2001
  | invalidInterval => 3001
  | invalidLocale => 4001
  | unknownLanguage => 4002
  | formattingFailed => 4003
  | currencyAmountNotInteger => 4004
  | pluralFormCountMismatch => 5001
  | duplicateInterval => 5002

def ofName? (name : Text) : Option DiagnosticCode := all.find? fun code => code.name = name

theorem ofName?_name (code : DiagnosticCode) : ofName? code.name = some code := by
  cases code <;> decide

end DiagnosticCode

/-- A stretch of a text: the offset of its first character and that just past its last. -/
structure Span where
  start : Nat
  stop : Nat
  start_le_stop : start ≤ stop
deriving DecidableEq, Repr

namespace Span

inductive Error
  | negative (start : Int)
  | inverted (start stop : Int)
deriving DecidableEq, Repr

def Error.message : Error → Text
  | negative start => "span start cannot be negative, got " ++ Text.ofInt start
  | inverted start stop =>
    "span end " ++ Text.ofInt stop ++ " precedes start " ++ Text.ofInt start

def ofBounds (start stop : Int) : Except Error Span :=
  if hstart : start < 0 then .error (.negative start)
  else if hstop : stop < start then .error (.inverted start stop)
  else .ok ⟨start.toNat, stop.toNat, by omega⟩

def column (span : Span) : Nat := span.start + 1

end Span

structure Severity where
  name : Text
deriving DecidableEq, Repr

def Severity.error : Severity := ⟨"error"⟩

def Severity.warning : Severity := ⟨"warning"⟩

structure Diagnostic where
  code : DiagnosticCode
  message : Text
  span : Option Span := none
  hint : Option Text := none
  key : Option Text := none
  language : Option Text := none
  severity : Severity := .error
deriving DecidableEq, Repr

end Phrasebook
