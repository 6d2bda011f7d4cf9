import Phrasebook.Proofs.Placeholder.Scan
import Phrasebook.Proofs.Placeholder.Writable
import Phrasebook.Proofs.Text.Spacing

/-!
Discovery and substitution go through a text independently. Discovery cuts out the tokens and passes
over a whole token at once; substitution looks for the tokens that have a value and for no others.
The two agree unless the sign that closes a token without a value also opens one that has a value:
then substitution takes the sign away from the token that discovery found. Apart from such texts
every token is filled with its value or stays as it is, and no other value matters.
-/
namespace Phrasebook.Placeholder

open Text

structure IsName (name : Text) : Prop where
  ne_nil : name ≠ []
  isNameChar : ∀ c ∈ name, isNameChar c

theorem isName_iff (name : Text) : IsName name ↔ name ≠ [] ∧ name.all isNameChar := by
  rw [List.all_eq_true]
  exact ⟨fun h => ⟨h.ne_nil, h.isNameChar⟩, fun h => ⟨h.1, h.2⟩⟩

instance (name : Text) : Decidable (IsName name) := decidable_of_iff _ (isName_iff name).symm

abbrev signed (name : Text) : Text := (Piece.token name).text

theorem signed_eq (name : Text) : signed name = '%' :: (name ++ ['%']) := rfl

theorem signed_ne_nil (name : Text) : signed name ≠ [] := List.cons_ne_nil _ _

theorem signed_injective {name other : Text} (h : signed name = signed other) : name = other := by
  rw [signed_eq, signed_eq] at h
  exact List.append_cancel_right (List.cons.inj h).2

theorem wrap_name {name : Text} (h : IsName name) : wrap name = signed name := by
  obtain ⟨c, rest, rfl⟩ := List.exists_cons_of_ne_nil h.ne_nil
  have hsign : c ≠ '%' := ne_of_kind (h.isNameChar c List.mem_cons_self) (by decide)
  simp [wrap, hsign, signed_eq]

theorem startsWithout_sign (rest : Text) : StartsWithout isNameChar ('%' :: rest) := by
  rw [startsWithout_cons]
  decide

/-- A token begins a text if and only if it is read there. -/
theorem tokenName?_eq_some_iff {text name : Text} :
    tokenName? text = some name ↔ IsName name ∧ signed name <+: text := by
  constructor
  · intro h
    obtain ⟨rest, rfl⟩ := tokenName?_eq_some h
    refine ⟨?_, ⟨rest, rfl⟩⟩
    simp only [List.append_assoc, List.cons_append, List.nil_append, tokenName?] at h
    split at h
    · next hname =>
      have htake := Option.some.inj h
      exact ⟨htake ▸ hname.1, fun c hc => List.mem_takeWhile_imp (htake.symm ▸ hc)⟩
    · cases h
  · rintro ⟨hname, rest, rfl⟩
    have htake := takeWhile_run hname.isNameChar (startsWithout_sign rest)
    have hdrop := dropWhile_run hname.isNameChar (startsWithout_sign rest)
    rw [signed_eq, List.cons_append, List.append_assoc, List.cons_append, List.nil_append]
    simp only [tokenName?, htake, hdrop, List.head?_cons]
    rw [if_pos ⟨hname.ne_nil, trivial⟩]

theorem piecesFrom_skip (skip : Nat) (text : Text) :
    piecesFrom skip text = pieces (text.drop skip) := by
  induction text generalizing skip with
  | nil => simp [pieces, piecesFrom]
  | cons c rest ih =>
    cases skip with
    | zero => rfl
    | succ skip =>
      rw [piecesFrom, ih skip]
      rfl

theorem pieces_plain {c : Char} {rest : Text} (h : tokenName? (c :: rest) = none) :
    pieces (c :: rest) = .plain c :: pieces rest := by
  rw [pieces, piecesFrom, h]
  rfl

theorem pieces_token {name : Text} (h : IsName name) (rest : Text) :
    pieces (signed name ++ rest) = .token name :: pieces rest := by
  have hread : tokenName? (signed name ++ rest) = some name :=
    tokenName?_eq_some_iff.2 ⟨h, rest, rfl⟩
  have hskip : (name ++ ['%'] ++ rest).drop (name.length + 1) = rest := by
    have hlength : (name ++ ['%']).length = name.length + 1 := by simp
    rw [← hlength, List.drop_left]
  rw [signed_eq, List.cons_append] at hread ⊢
  rw [pieces, piecesFrom, hread]
  simp only [piecesFrom_skip, hskip]

/-- Texts are taken apart as discovery does it. -/
theorem pieces_induction {motive : Text → Prop} (nil : motive [])
    (plain : ∀ c rest, tokenName? (c :: rest) = none → motive rest → motive (c :: rest))
    (token : ∀ name rest, IsName name → motive rest → motive (signed name ++ rest))
    (text : Text) : motive text := by
  induction hlength : text.length using Nat.strongRecOn generalizing text with
  | ind length ih =>
    cases text with
    | nil => exact nil
    | cons c rest =>
      cases hread : tokenName? (c :: rest) with
      | none => exact plain c rest hread (ih rest.length (by simp [← hlength]) rest rfl)
      | some name =>
        obtain ⟨hname, after, hafter⟩ := tokenName?_eq_some_iff.1 hread
        have hshorter : after.length < length := by
          rw [← hlength, ← hafter, List.length_append, signed_eq, List.length_cons]
          omega
        rw [← hafter]
        exact token name after hname (ih after.length hshorter after rfl)

theorem flatMap_text_pieces (text : Text) : (pieces text).flatMap Piece.text = text :=
  flatMap_text_piecesFrom 0 text

theorem mem_tokens_iff {text name : Text} :
    signed name ∈ tokens text ↔ .token name ∈ pieces text := by
  rw [tokens, List.mem_eraseDups, List.mem_filterMap]
  constructor
  · rintro ⟨piece, hpiece, htoken⟩
    cases piece with
    | plain c => cases htoken
    | token other =>
      obtain rfl := signed_injective (Option.some.inj htoken)
      exact hpiece
  · intro h
    exact ⟨_, h, rfl⟩

def Piece.stretches (names : List Text) : Piece → List Stretch
  | .plain c => [.copied c]
  | .token name =>
    if name ∈ names then [.found (signed name)] else (signed name).map Stretch.copied

/-- No token whose name is missing closes with a sign that opens a token whose name is there. -/
def Apart (names : List Text) : List Piece → Prop
  | [] => True
  | .plain _ :: rest => Apart names rest
  | .token name :: rest =>
    (name ∉ names → ∀ other ∈ names, ¬ signed other <+: '%' :: rest.flatMap Piece.text) ∧
      Apart names rest

instance decidableApart (names : List Text) :
    (pieces : List Piece) → Decidable (Apart names pieces)
  | [] => isTrue trivial
  | .plain _ :: rest => decidableApart names rest
  | .token _ :: rest =>
    have := decidableApart names rest
    inferInstanceAs (Decidable (_ ∧ _))

section Scans

variable {keys : List Text} {stretches : List Stretch}

theorem scan_copied_iff {c : Char} {rest : Text} :
    Scan keys (c :: rest) (.copied c :: stretches) ↔
      (∀ key ∈ keys, key ≠ [] → ¬ key <+: c :: rest) ∧ Scan keys rest stretches := by
  constructor
  · intro h
    cases h with
    | copied hnone hrest => exact ⟨hnone, hrest⟩
  · rintro ⟨hnone, hrest⟩
    exact .copied hnone hrest

theorem scan_copied_run {run rest : Text}
    (hrun : ∀ c ∈ run, ∀ after, ∀ key ∈ keys, key ≠ [] → ¬ key <+: c :: after) :
    Scan keys (run ++ rest) (run.map Stretch.copied ++ stretches) ↔ Scan keys rest stretches := by
  induction run with
  | nil => exact Iff.rfl
  | cons c run ih =>
    have hnone := hrun c List.mem_cons_self (run ++ rest)
    have hrest := ih fun d hd => hrun d (List.mem_cons_of_mem c hd)
    rw [List.map_cons, List.cons_append, List.cons_append, scan_copied_iff, hrest,
      and_iff_right hnone]

theorem scan_found_iff {key rest : Text} (hkey : key ∈ keys) (hne : key ≠ [])
    (hlongest : ∀ other ∈ keys, other <+: key ++ rest → other.length ≤ key.length) :
    Scan keys (key ++ rest) (.found key :: stretches) ↔ Scan keys rest stretches := by
  constructor
  · intro h
    generalize htext : key ++ rest = text at h
    cases h with
    | found _ _ htext' _ hrest => rwa [List.append_cancel_left (htext.trans htext')]
  · intro hrest
    exact .found hkey hne rfl hlongest hrest

end Scans

section Tokens

variable {names : List Text}

theorem eq_of_signed_begins {name other after : Text} (hname : IsName name) (hother : IsName other)
    (h : signed other <+: signed name ++ after) : other = name := by
  have hread := tokenName?_eq_some_iff.2 ⟨hother, h⟩
  rw [tokenName?_eq_some_iff.2 ⟨hname, after, rfl⟩] at hread
  exact (Option.some.inj hread).symm

/-- Tokens begin with a sign. -/
theorem not_signed_begins {c : Char} (hc : c ≠ '%') (after : Text) :
    ∀ key ∈ names.map signed, key ≠ [] → ¬ key <+: c :: after := by
  intro key hkey _ hbegins
  obtain ⟨name, -, rfl⟩ := List.mem_map.1 hkey
  rw [signed_eq, List.cons_prefix_cons] at hbegins
  exact hc hbegins.1.symm

theorem not_signed_begins_iff (text : Text) :
    (∀ key ∈ names.map signed, key ≠ [] → ¬ key <+: text) ↔
      ∀ name ∈ names, ¬ signed name <+: text := by
  constructor
  · intro h name hname
    exact h _ (List.mem_map_of_mem hname) (signed_ne_nil name)
  · intro h key hkey _
    obtain ⟨name, hname, rfl⟩ := List.mem_map.1 hkey
    exact h name hname

/-- Substitution finds exactly the tokens that discovery found and that have a name that is there,
if and only if the tokens are apart. -/
theorem scan_pieces_iff (hnames : ∀ name ∈ names, IsName name) (text : Text) :
    Scan (names.map signed) text ((pieces text).flatMap (Piece.stretches names)) ↔
      Apart names (pieces text) := by
  induction text using pieces_induction with
  | nil => exact ⟨fun _ => trivial, fun _ => .done⟩
  | plain c rest hread ih =>
    have hnone : ∀ name ∈ names, ¬ signed name <+: c :: rest := by
      intro name hname hbegins
      rw [tokenName?_eq_some_iff.2 ⟨hnames name hname, hbegins⟩] at hread
      cases hread
    rw [pieces_plain hread, List.flatMap_cons, Piece.stretches, List.singleton_append,
      scan_copied_iff, not_signed_begins_iff, and_iff_right hnone, ih]
    exact Iff.rfl
  | token name rest hname ih =>
    rw [pieces_token hname, List.flatMap_cons, Piece.stretches, Apart, flatMap_text_pieces]
    by_cases hmem : name ∈ names
    · have hlongest : ∀ other ∈ names.map signed, other <+: signed name ++ rest →
          other.length ≤ (signed name).length := by
        intro key hkey hbegins
        obtain ⟨other, hother, rfl⟩ := List.mem_map.1 hkey
        rw [eq_of_signed_begins hname (hnames other hother) hbegins]
      rw [if_pos hmem, List.singleton_append,
        scan_found_iff (List.mem_map_of_mem hmem) (signed_ne_nil name) hlongest, ih]
      exact ⟨fun h => ⟨fun hnot => absurd hmem hnot, h⟩, fun h => h.2⟩
    · have hopening : ∀ other ∈ names, ¬ signed other <+: signed name ++ rest := by
        intro other hother hbegins
        rw [eq_of_signed_begins hname (hnames other hother) hbegins] at hother
        exact hmem hother
      have hinside : ∀ c ∈ name, ∀ after, ∀ key ∈ names.map signed, key ≠ [] →
          ¬ key <+: c :: after := by
        intro c hc
        exact not_signed_begins (ne_of_kind (hname.isNameChar c hc) (by decide))
      have htext : signed name ++ rest = '%' :: (name ++ '%' :: rest) := by
        simp [signed_eq]
      rw [htext] at hopening ⊢
      rw [if_neg hmem, signed_eq, List.map_cons, List.map_append, List.cons_append,
        List.append_assoc, scan_copied_iff, not_signed_begins_iff, and_iff_right hopening,
        scan_copied_run hinside, List.map_singleton, List.singleton_append, scan_copied_iff,
        not_signed_begins_iff, ih]
      exact ⟨fun h => ⟨fun _ => h.1, h.2⟩, fun h => ⟨h.1 hmem, h.2⟩⟩

theorem Apart.mono {others : List Text} {pieces : List Piece} (hsub : ∀ name ∈ others, name ∈ names)
    (hkept : ∀ name, .token name ∈ pieces → name ∈ names → name ∈ others)
    (h : Apart names pieces) : Apart others pieces := by
  induction pieces with
  | nil => trivial
  | cons piece rest ih =>
    have hrest : ∀ name, .token name ∈ rest → name ∈ names → name ∈ others :=
      fun name hmem => hkept name (List.mem_cons_of_mem _ hmem)
    cases piece with
    | plain c => exact ih hrest h
    | token name =>
      refine ⟨?_, ih hrest h.2⟩
      intro hmissing other hother
      have hunnamed : name ∉ names := fun hname => hmissing (hkept name List.mem_cons_self hname)
      exact h.1 hunnamed other (hsub other hother)

end Tokens

def Piece.filled (table : Table) : Piece → Text
  | .plain c => [c]
  | .token name => (table.get? (signed name)).getD (signed name)

theorem flatMap_filled_copied (table : Table) (text : Text) :
    (text.map Stretch.copied).flatMap (Stretch.filled table) = text := by
  induction text with
  | nil => rfl
  | cons c rest ih =>
    rw [List.map_cons, List.flatMap_cons, ih]
    rfl

section Filling

variable {table : Table} {names : List Text}

theorem flatMap_filled_stretches (hkeys : ∀ key, key ∈ table.keys ↔ key ∈ names.map signed)
    (piece : Piece) : (piece.stretches names).flatMap (Stretch.filled table) = piece.filled table := by
  cases piece with
  | plain c => rfl
  | token name =>
    have hkey : signed name ∈ table.keys ↔ name ∈ names := by
      rw [hkeys, List.mem_map]
      constructor
      · rintro ⟨other, hother, heq⟩
        rwa [← signed_injective heq]
      · intro hname
        exact ⟨name, hname, rfl⟩
    rw [Piece.stretches, Piece.filled]
    by_cases hname : name ∈ names
    · rw [if_pos hname, List.flatMap_singleton]
      rfl
    · have hget : table.get? (signed name) = none := by
        by_contra hget
        exact hname (hkey.1 ((table.mem_keys_iff _).2 hget))
      rw [if_neg hname, flatMap_filled_copied, hget]
      rfl

/-- Where the tokens are apart, substitution fills the tokens that discovery finds. -/
theorem substitute_eq_filled {text : Text} (hnames : ∀ name ∈ names, IsName name)
    (hkeys : ∀ key, key ∈ table.keys ↔ key ∈ names.map signed)
    (hapart : Apart names (pieces text)) :
    substitute text table = (pieces text).flatMap (Piece.filled table) := by
  have hscan := (scan_pieces_iff hnames text).2 hapart
  rw [substitute_of_scan (hscan.congr hkeys), List.flatMap_assoc]
  exact List.flatMap_congr fun piece _ => flatMap_filled_stretches hkeys piece

end Filling

section Named

variable {entries : List (Value × Value)}

def names (entries : List (Value × Value)) : List Text := entries.map (·.1.words)

/-- The values for the tokens that a text holds. -/
def held (text : Text) (entries : List (Value × Value)) : List (Value × Value) :=
  entries.filter fun entry => signed entry.1.words ∈ tokens text

theorem mem_keys_spelled (hnames : ∀ name ∈ names entries, IsName name) (key : Text) :
    key ∈ (Table.spelled entries).keys ↔ key ∈ (names entries).map signed := by
  have hwrapped : entries.map (fun entry => wrap entry.1.words) = (names entries).map signed := by
    rw [names, List.map_map]
    apply List.map_congr_left
    intro entry hentry
    exact wrap_name (hnames _ (List.mem_map_of_mem hentry))
  rw [Table.spelled, OrderedMap.mem_keys_ofList, List.map_map, ← hwrapped]
  exact Iff.rfl

/-- Leaving out entries for other tokens does not change what a token is filled with. -/
theorem get?_spelled_filter {p : Text → Bool} {key : Text} (hkey : p key)
    (entries : List (Value × Value)) :
    (Table.spelled (entries.filter fun entry => p (wrap entry.1.words))).get? key =
      (Table.spelled entries).get? key := by
  have hfilter : (entries.filter fun entry => p (wrap entry.1.words)).map
      (fun entry => (wrap entry.1.words, entry.2.reading)) =
      (entries.map fun entry => (wrap entry.1.words, entry.2.reading)).filter
        fun entry => p entry.1 := by
    rw [List.filter_map]
    rfl
  rw [Table.spelled, hfilter]
  exact OrderedMap.get?_setAll_filter hkey rfl _

theorem get?_spelled_held (hnames : ∀ name ∈ names entries, IsName name) {text key : Text}
    (hkey : key ∈ tokens text) :
    (Table.spelled (held text entries)).get? key = (Table.spelled entries).get? key := by
  have hheld : held text entries =
      entries.filter fun entry => decide (wrap entry.1.words ∈ tokens text) := by
    apply List.filter_congr
    intro entry hentry
    rw [wrap_name (hnames _ (List.mem_map_of_mem hentry))]
  rw [hheld]
  exact get?_spelled_filter (p := fun key => decide (key ∈ tokens text)) (by simpa using hkey) entries

theorem names_held_subset (text : Text) :
    ∀ name ∈ names (held text entries), name ∈ names entries := by
  intro name hname
  obtain ⟨entry, hentry, rfl⟩ := List.mem_map.1 hname
  exact List.mem_map_of_mem (List.mem_filter.1 hentry).1

theorem mem_names_held {text name : Text} (htoken : signed name ∈ tokens text)
    (hname : name ∈ names entries) : name ∈ names (held text entries) := by
  obtain ⟨entry, hentry, rfl⟩ := List.mem_map.1 hname
  exact List.mem_map_of_mem (List.mem_filter.2 ⟨hentry, by simpa using htoken⟩)

theorem filled_held (hnames : ∀ name ∈ names entries, IsName name) {text : Text} {piece : Piece}
    (hpiece : piece ∈ pieces text) :
    piece.filled (Table.spelled (held text entries)) = piece.filled (Table.spelled entries) := by
  cases piece with
  | plain c => rfl
  | token name =>
    have htoken : signed name ∈ tokens text := mem_tokens_iff.2 hpiece
    rw [Piece.filled, Piece.filled, get?_spelled_held hnames htoken]

theorem isWritable_held {text : Text} (h : entries.all isWritableEntry) :
    (held text entries).all isWritableEntry := by
  rw [List.all_eq_true] at h ⊢
  exact fun entry hentry => h entry (List.mem_filter.1 hentry).1

/-- Where the tokens are apart, the values for other tokens do not change what is filled in. -/
theorem substitute_held {text : Text} (hnames : ∀ name ∈ names entries, IsName name)
    (hapart : Apart (names entries) (pieces text)) :
    substitute text (Table.spelled (held text entries)) =
      substitute text (Table.spelled entries) := by
  have hheld : ∀ name ∈ names (held text entries), IsName name :=
    fun name hname => hnames name (names_held_subset text name hname)
  have hsome : substitute text (Table.spelled (held text entries)) =
      (pieces text).flatMap (Piece.filled (Table.spelled (held text entries))) := by
    apply substitute_eq_filled hheld (mem_keys_spelled hheld)
    apply hapart.mono (names_held_subset text)
    intro name hpiece
    exact mem_names_held (mem_tokens_iff.2 hpiece)
  rw [hsome, substitute_eq_filled hnames (mem_keys_spelled hnames) hapart]
  exact List.flatMap_congr fun piece hpiece => filled_held hnames hpiece

theorem bind_of_isWritable {text : Text} {args : Args} (h : args.isWritable text []) :
    bind text args = .ok (substitute text (args.spelled text [])) := by
  rw [bind, table_of_isWritable h]
  rfl

theorem bind_of_not_isWritable {text : Text} {args : Args}
    (hargs : ∀ kind, args ≠ .unsuitable kind) (h : args.isWritable text [] = false) :
    bind text args = .error .tooManyDigits := by
  rw [bind, table_of_not_isWritable hargs h]
  rfl

/-- Substitution replaces exactly the tokens that discovery finds and that have a value, if and only
if no token without a value closes with a sign that opens one with a value. Then a token without a
value stays, and the values for tokens that the text does not hold make no difference, except that
one of them may have too many digits to be written when none of the others has. -/
theorem bind_named_of_apart (text : Text) (entries : List (Value × Value))
    (hnames : ∀ name ∈ names entries, IsName name) :
    (Scan (Table.spelled entries).keys text
        ((pieces text).flatMap (Piece.stretches (names entries))) ↔
      Apart (names entries) (pieces text)) ∧
    (Apart (names entries) (pieces text) →
      bind text (.named entries) =
        (if entries.all isWritableEntry then
          .ok ((pieces text).flatMap (Piece.filled (Table.spelled entries)))
        else .error .tooManyDigits) ∧
      (bind text (.named entries) = bind text (.named (held text entries)) ↔
        ((held text entries).all isWritableEntry → entries.all isWritableEntry))) := by
  have hkeys := mem_keys_spelled hnames
  constructor
  · rw [← scan_pieces_iff hnames text]
    constructor
    · exact Scan.congr fun key => (hkeys key).symm
    · exact Scan.congr hkeys
  · intro hapart
    have hsame := substitute_held hnames hapart
    cases hwritable : entries.all isWritableEntry with
    | true =>
      have hheld : (held text entries).all isWritableEntry := isWritable_held hwritable
      have hall : bind text (.named entries) = .ok (substitute text (Table.spelled entries)) :=
        bind_of_isWritable hwritable
      have hsome : bind text (.named (held text entries)) =
          .ok (substitute text (Table.spelled (held text entries))) := bind_of_isWritable hheld
      rw [hall, hsome, hsame, substitute_eq_filled hnames hkeys hapart]
      simp
    | false =>
      have hall : bind text (.named entries) = .error .tooManyDigits :=
        bind_of_not_isWritable (Args.named_suitable _) hwritable
      refine ⟨hall, ?_⟩
      rw [hall]
      cases hheld : (held text entries).all isWritableEntry with
      | true =>
        have hsome : bind text (.named (held text entries)) =
            .ok (substitute text (Table.spelled (held text entries))) := bind_of_isWritable hheld
        simp [hsome]
      | false =>
        have hsome : bind text (.named (held text entries)) = .error .tooManyDigits :=
          bind_of_not_isWritable (Args.named_suitable _) hheld
        simp [hsome]

/-- A value for a token that the text does not hold is ignored. -/
theorem bind_named_of_apart_neighbours :
    (∀ name ∈ names [(.text "a", .text "X"), (.text "d", .text "Y")], IsName name) ∧
      Apart (names [(.text "a", .text "X"), (.text "d", .text "Y")]) (pieces "%a%d%c%") ∧
      bind "%a%d%c%" (.named [(.text "a", .text "X"), (.text "d", .text "Y")]) = .ok "Xd%c%" ∧
      bind "%a%d%c%" (.named [(.text "a", .text "X"), (.text "d", .text "Y")]) =
        bind "%a%d%c%" (.named [(.text "a", .text "X")]) := by
  have hnames : ∀ name ∈ names [(.text "a", .text "X"), (.text "d", .text "Y")], IsName name := by
    decide
  have hapart : Apart (names [(.text "a", .text "X"), (.text "d", .text "Y")])
      (pieces "%a%d%c%") := by
    decide
  obtain ⟨hfilled, hheld⟩ := (bind_named_of_apart "%a%d%c%" _ hnames).2 hapart
  exact ⟨hnames, hapart, hfilled, hheld.2 fun _ => rfl⟩

/-- A value for a name that the text does not hold breaks two tokens that it does. -/
theorem bind_named_across_tokens :
    tokens "%a%b%c%" = ["%a%", "%c%"] ∧ IsName "b" ∧
      bind "%a%b%c%" (.named [(.text "b", .text "X")]) = .ok "%aXc%" ∧
      bind "%a%b%c%" (.named (held "%a%b%c%" [(.text "b", .text "X")])) = .ok "%a%b%c%" := by
  have hscan : Scan (Table.spelled [(.text "b", .text "X")]).keys "%a%b%c%"
      [.copied '%', .copied 'a', .found "%b%", .copied 'c', .copied '%'] := by
    have htext : ("%b%c%" : Text) = ("%b%" : Text) ++ ("c%" : Text) := rfl
    refine .copied (by decide) (.copied (by decide) ?_)
    refine .found (by decide) (by decide) htext (by decide) ?_
    exact .copied (by decide) (.copied (by decide) .done)
  have hnone : substitute "%a%b%c%" (Table.spelled []) = "%a%b%c%" := by
    have hnames : ∀ name ∈ names [], IsName name := by decide
    exact substitute_eq_filled hnames (mem_keys_spelled hnames) (by decide)
  refine ⟨rfl, by decide, ?_, ?_⟩
  · exact congrArg Except.ok (substitute_of_scan hscan)
  · exact congrArg Except.ok hnone

end Named

end Phrasebook.Placeholder
