import Phrasebook.Text.Blank

/-!
Locale tags in their usual form have a low line between language and territory. The locale of the
system is the first of several settings that names a real one; the names of no locale at all are
passed over.
-/
namespace Phrasebook.Tag

def normalize (tag : Text) : Text := (Text.trim tag).replace '-' '_'

/-- Language and territory, the territory being what follows the first low line. -/
def languageAndTerritory (tag : Text) : Text × Option Text :=
  let (language, territory) := Text.partition '_' (normalize tag)
  (language, if territory = [] then none else some territory)

def withoutEncoding (setting : Text) : Text :=
  (setting.takeWhile (· != '.')).takeWhile (· != '@')

def pseudo : List Text := ["C", "POSIX", ""]

/-- What the surroundings say about the locale. A source that cannot be asked says nothing. -/
structure Settings where
  reported : Option Text
  all : Option Text
  messages : Option Text
  lang : Option Text
deriving DecidableEq, Repr

def Settings.candidates (settings : Settings) : List Text :=
  [settings.reported, settings.all, settings.messages, settings.lang].filterMap id

def system? (settings : Settings) : Option Text :=
  let real := settings.candidates.find? fun setting => !pseudo.contains (withoutEncoding setting)
  real.map fun setting => normalize (withoutEncoding setting)

def fallback : Text := "en_US"

structure Undetermined where
deriving DecidableEq, Repr

def Undetermined.message (_ : Undetermined) : Text :=
  "Could not determine system locale. Set LC_ALL, LC_MESSAGES, or LANG environment variable."

def system (settings : Settings) : Except Undetermined Text :=
  match system? settings with
  | some tag => .ok tag
  | none => .error ⟨⟩

def systemOrFallback (settings : Settings) : Text := (system? settings).getD fallback

end Phrasebook.Tag
