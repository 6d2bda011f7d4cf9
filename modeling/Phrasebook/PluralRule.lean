import Phrasebook.Number

/-!
Languages fall into families that share one plural rule: which of the family's forms a number
takes. A rule looks at the number itself for equality and order, and at the last digits of its
integer part. The family is found by a key that a language tag is reduced to; a language without
an entry has a single form.
-/
namespace Phrasebook

inductive PluralFamily
  | invariant | oneOther | zeroOneOther | eastSlavic | czech | irish | lithuanian | slovenian
  | macedonian | maltese | latvian | polish | welsh | romanian | arabic
deriving DecidableEq, Repr

namespace PluralFamily

def all : List PluralFamily :=
  [invariant, oneOther, zeroOneOther, eastSlavic, czech, irish, lithuanian, slovenian,
    macedonian, maltese, latvian, polish, welsh, romanian, arabic]

theorem mem_all (family : PluralFamily) : family ∈ all := by cases family <;> decide

def name : PluralFamily → Text
  | invariant => "invariant"
  | oneOther => "one-other"
  | zeroOneOther => "zero-one-other"
  | eastSlavic => "east-slavic"
  | czech => "czech"
  | irish => "irish"
  | lithuanian => "lithuanian"
  | slovenian => "slovenian"
  | macedonian => "macedonian"
  | maltese => "maltese"
  | latvian => "latvian"
  | polish => "polish"
  | welsh => "welsh"
  | romanian => "romanian"
  | arabic => "arabic"

def forms : PluralFamily → Nat
  | invariant => 1
  | oneOther | zeroOneOther | macedonian => 2
  | eastSlavic | czech | irish | lithuanian | latvian | polish | romanian => 3
  | slovenian | maltese | welsh => 4
  | arabic => 6

/-- The keys of the family's languages. Brazilian Portuguese has the key `xbr`. -/
def languages : PluralFamily → List Text
  | invariant => words "bo dz id ja jv ka km kn ko ms th tr vi zh"
  | oneOther =>
    words "af az bn bg ca da de el en eo es et eu fa fi fo fur fy gl gu ha he hu is it ku lb" ++
      words "ml mn mr nah nb ne nl nn no om or pa pap ps pt so sq sv sw ta te tk ur zu"
  | zeroOneOther => words "am bh fil fr gun hi ln mg nso xbr ti wa"
  | eastSlavic => words "be bs hr ru sr uk"
  | czech => words "cs sk"
  | irish => ["ga"]
  | lithuanian => ["lt"]
  | slovenian => ["sl"]
  | macedonian => ["mk"]
  | maltese => ["mt"]
  | latvian => ["lv"]
  | polish => ["pl"]
  | welsh => ["cy"]
  | romanian => ["ro"]
  | arabic => ["ar"]
where
  words : Text → List Text := Text.split ' '

def isExactly (n : Point) (k : Int) : Bool := n.same (.ofInt k)

def isBetween (n : Point) (low high : Int) : Bool :=
  (Point.ofInt low).le n && n.le (.ofInt high)

/-- The last digit of the integer part, and its last two digits, negative for a negative number. -/
def lastDigits (n : Point) : Int × Int := (n.truncate.tmod 10, n.truncate.tmod 100)

def index (family : PluralFamily) (n : Point) : Nat :=
  let (last, lastTwo) := lastDigits n
  match family with
  | invariant => 0
  | oneOther => if isExactly n 1 then 0 else 1
  | zeroOneOther => if isExactly n 0 || isExactly n 1 then 0 else 1
  | eastSlavic =>
    if last = 1 ∧ lastTwo ≠ 11 then 0
    else if 2 ≤ last ∧ last ≤ 4 ∧ (lastTwo < 10 ∨ 20 ≤ lastTwo) then 1
    else 2
  | czech => if isExactly n 1 then 0 else if isBetween n 2 4 then 1 else 2
  | irish => if isExactly n 1 then 0 else if isExactly n 2 then 1 else 2
  | lithuanian =>
    if last = 1 ∧ lastTwo ≠ 11 then 0
    else if 2 ≤ last ∧ (lastTwo < 10 ∨ 20 ≤ lastTwo) then 1
    else 2
  | slovenian =>
    if lastTwo = 1 then 0 else if lastTwo = 2 then 1
    else if lastTwo = 3 ∨ lastTwo = 4 then 2
    else 3
  | macedonian => if last = 1 then 0 else 1
  | maltese =>
    if isExactly n 1 then 0
    else if isExactly n 0 ∨ (1 < lastTwo ∧ lastTwo < 11) then 1
    else if 10 < lastTwo ∧ lastTwo < 20 then 2
    else 3
  | latvian =>
    if isExactly n 0 then 0 else if last = 1 ∧ lastTwo ≠ 11 then 1 else 2
  | polish =>
    if isExactly n 1 then 0
    else if 2 ≤ last ∧ last ≤ 4 ∧ (lastTwo < 12 ∨ 14 < lastTwo) then 1
    else 2
  | welsh =>
    if isExactly n 1 then 0 else if isExactly n 2 then 1
    else if isExactly n 8 || isExactly n 11 then 2
    else 3
  | romanian =>
    if isExactly n 1 then 0
    else if isExactly n 0 ∨ (0 < lastTwo ∧ lastTwo < 20) then 1
    else 2
  | arabic =>
    if isExactly n 0 then 0 else if isExactly n 1 then 1 else if isExactly n 2 then 2
    else if isBetween n 3 10 then 3
    else if isBetween n 11 99 then 4
    else 5

/-- A form is one of the family's. -/
theorem index_lt_forms (family : PluralFamily) (n : Point) : family.index n < family.forms := by
  cases family <;> simp only [index, forms] <;> (repeat' split) <;> omega

/-- The key of a language tag. Hyphens count as low lines, and a tag of more than three
characters loses its last part. -/
def key (language : Text) : Text :=
  let tag := language.replace '-' '_'
  if tag = "pt_BR" then "xbr"
  else if 3 < tag.length ∧ '_' ∈ tag then
    ((tag.reverse.dropWhile (· != '_')).drop 1).reverse
  else tag

def ofLanguage (language : Text) : PluralFamily :=
  (all.find? fun family => family.languages.contains (key language)).getD invariant

end PluralFamily

def pluralForms (language : Text) : Nat := (PluralFamily.ofLanguage language).forms

def pluralIndex (language : Text) (number : Number) : Except Number.Incomparable Nat :=
  number.point.map (PluralFamily.ofLanguage language).index

theorem pluralIndex_lt_pluralForms {language : Text} {number : Number} {i : Nat}
    (h : pluralIndex language number = .ok i) : i < pluralForms language := by
  unfold pluralIndex at h
  cases hpoint : number.point with
  | error e => simp [hpoint, Except.map] at h
  | ok place =>
    simp only [hpoint, Except.map, Except.ok.injEq] at h
    exact h ▸ PluralFamily.index_lt_forms _ _

end Phrasebook
