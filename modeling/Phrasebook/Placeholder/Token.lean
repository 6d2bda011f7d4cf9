import Phrasebook.Text.Blank

/-!
Placeholders are names between per cent signs. A text falls into pieces from left to right: a token
where a whole one begins, else a single character. Writing the pieces gives the text back.
-/
namespace Phrasebook.Placeholder

/-- A name with a per cent sign on either side, unless it has them already. -/
def wrap (name : Text) : Text :=
  if 2 ≤ name.length ∧ name.head? = some '%' ∧ name.getLast? = some '%' then name
  else ['%'] ++ name ++ ['%']

inductive Piece
  | plain (c : Char)
  | token (name : Text)
deriving DecidableEq, Repr

def Piece.text : Piece → Text
  | plain c => [c]
  | token name => ['%'] ++ name ++ ['%']

/-- Names hold neither per cent signs nor white space. -/
def isNameChar (c : Char) : Bool := c != '%' && !Text.isBlank c

def tokenName? : Text → Option Text
  | '%' :: rest =>
    let name := rest.takeWhile isNameChar
    if name ≠ [] ∧ (rest.dropWhile isNameChar).head? = some '%' then some name else none
  | _ => none

def piecesFrom : Nat → Text → List Piece
  | _, [] => []
  | skip + 1, _ :: rest => piecesFrom skip rest
  | 0, c :: rest =>
    match tokenName? (c :: rest) with
    | some name => .token name :: piecesFrom (name.length + 1) rest
    | none => .plain c :: piecesFrom 0 rest

def pieces (text : Text) : List Piece := piecesFrom 0 text

def tokens (text : Text) : List Text :=
  ((pieces text).filterMap fun
    | .plain _ => none
    | piece => some piece.text).eraseDups

theorem tokenName?_eq_some {text name : Text} (h : tokenName? text = some name) :
    ∃ rest, text = ['%'] ++ name ++ ['%'] ++ rest := by
  unfold tokenName? at h
  split at h
  · next rest =>
    dsimp only at h
    split at h
    · next hname =>
      obtain rfl := Option.some.inj h
      obtain ⟨after, hafter⟩ : ∃ after, rest.dropWhile isNameChar = '%' :: after := by
        cases hdrop : rest.dropWhile isNameChar with
        | nil => simp [hdrop] at hname
        | cons c after =>
          rw [hdrop] at hname
          exact ⟨after, by simpa using hname.2⟩
      refine ⟨after, ?_⟩
      conv => lhs; rw [← List.takeWhile_append_dropWhile (p := isNameChar) (l := rest), hafter]
      simp
    · simp at h
  · simp at h

/-- Writing the pieces gives the text back. -/
theorem flatMap_text_piecesFrom (skip : Nat) (text : Text) :
    (piecesFrom skip text).flatMap Piece.text = text.drop skip := by
  induction text generalizing skip with
  | nil => simp [piecesFrom]
  | cons c rest ih =>
    cases skip with
    | succ skip => simpa [piecesFrom] using ih skip
    | zero =>
      simp only [piecesFrom]
      cases hname : tokenName? (c :: rest) with
      | none => simp [ih 0, Piece.text]
      | some name =>
        obtain ⟨after, hafter⟩ := tokenName?_eq_some hname
        obtain ⟨rfl, rfl⟩ : c = '%' ∧ rest = name ++ '%' :: after := by simpa using hafter
        simp [ih (name.length + 1), Piece.text, List.drop_append]

end Phrasebook.Placeholder
