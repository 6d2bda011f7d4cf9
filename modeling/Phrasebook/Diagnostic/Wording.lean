import Phrasebook.Diagnostic.Basic
import Phrasebook.Lack

/-!
The sentences and hints of the diagnostics, all in one place. Texts from outside are quoted, and
cut first so that no sentence grows without bound.
-/
namespace Phrasebook.Diagnostic

def cite (text : Text) : Text := (text.ellipsis 80).quoted

/-- The text to cite for a value. What is no text has no length to be cut to. -/
def citable (value : Value) : Except Lack Text :=
  match value with
  | .text text => .ok text
  | _ => .error ⟨value.fullKind, .length⟩

def missingTranslation (key language : Text) : Diagnostic where
  code := .missingTranslation
  message := "Translation " ++ cite key ++ " not found for language '" ++ language ++ "'"
  hint := some "Add the key to one of the translator's dictionaries or enable silent mode"
  key := some key
  language := some language

def pluralFormNotFound (message : Text) (count : Value) (language : Text) :
    Except TooManyDigits Diagnostic := do
  let written ← count.toText
  return {
    code := .pluralFormNotFound
    message :=
      "Unable to choose a translation for " ++ cite message ++ " with count " ++ written ++
        " and language '" ++ language ++ "'"
    hint := some "Provide one standard clause per plural form of the language"
    language := some language }

def invalidIntervalAt (interval : Text) (span : Span) : Diagnostic where
  code := .invalidInterval
  message := cite interval ++ " is not a valid interval"
  span := some span
  hint := some
    "Use \x7bn1,n2,...\x7d or [a,b] / ]a,b[ with numbers, -Inf, +Inf or Inf"

def invalidInterval (interval : Text) (offset : Nat) : Diagnostic :=
  invalidIntervalAt interval ⟨offset, max offset interval.length, Nat.le_max_left ..⟩

def invalidInterval? (interval : Text) (offset : Int) : Except Span.Error Diagnostic :=
  (Span.ofBounds offset (max offset interval.length)).map (invalidIntervalAt interval)

def invalidLocale (code : Text) : Diagnostic where
  code := .invalidLocale
  message :=
    "Invalid locale format " ++ cite code ++
      ", expected something like \"en_US\" or \"en-US\""
  hint := some "Use a 2-3 letter lowercase language and a 2 letter uppercase territory"

def invalidLanguageTag (language : Text) : Diagnostic where
  code := .invalidLocale
  message := "Invalid language tag " ++ cite language
  hint := some
    "Use a language code such as \"en\", optionally with a territory: \"pt_BR\" or \"pt-BR\""
  language := some language

def unknownLanguage (language : Text) : Diagnostic where
  code := .unknownLanguage
  message := "Unable to create locale for language " ++ cite language
  hint := some "Construct the Locale with an explicit territory instead"
  language := some language

def formattingFailed (kind value reason : Text) : Diagnostic where
  code := .formattingFailed
  message := kind ++ " formatting failed for '" ++ value ++ "': " ++ reason

def currencyAmountNotInteger (amount : Value) : Diagnostic where
  code := .currencyAmountNotInteger
  message := "Currency amounts have to be given as integer value"
  hint := some ("Pass minor units as int, e.g. 12345 for 123.45 (got " ++ amount.kind ++ ")")

def pluralFormCountMismatch (found expected : Int) (language : Text) : Diagnostic where
  code := .pluralFormCountMismatch
  message :=
    "Message has " ++ Text.ofInt found ++ " standard clause(s) but language '" ++ language ++
      "' uses " ++ Text.ofInt expected ++ " plural form(s)"
  language := some language
  severity := .warning

def duplicateInterval (interval : Text) : Diagnostic where
  code := .duplicateInterval
  message := "Interval " ++ cite interval ++ " is declared more than once; only the first applies"
  severity := .warning

end Phrasebook.Diagnostic
