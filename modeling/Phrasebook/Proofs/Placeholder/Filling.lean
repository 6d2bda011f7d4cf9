import Mathlib.Data.Set.List
import Phrasebook.Proofs.Placeholder.Discovery

/-!
Binding with a value for every token. The keys of a mapping are names with or without their signs,
and the last of several keys for one token counts; values without names go to the distinct tokens
in turn. If every token has a value, then the two scans stop at the same places, however the signs
stand and whatever other values there are: a sign that closes a token is gone before it could open
another one.
-/
namespace Phrasebook.Placeholder

/-- A text is cut into pieces from left to right: a token where a whole one begins, else a
character. -/
inductive Cut : Text → List Piece → Prop
  | done : Cut [] []
  | plain {c : Char} {rest : Text} {parts : List Piece}
      (hnone : ∀ name, IsName name → ¬ signed name <+: c :: rest) (hrest : Cut rest parts) :
      Cut (c :: rest) (.plain c :: parts)
  | token {name rest : Text} {parts : List Piece} (hname : IsName name)
      (hrest : Cut rest parts) : Cut (signed name ++ rest) (.token name :: parts)

theorem cut_pieces (text : Text) : Cut text (pieces text) := by
  induction text using pieces_induction with
  | nil => exact .done
  | plain c rest hread ih =>
    rw [pieces_plain hread]
    refine .plain ?_ ih
    intro name hname hbegins
    rw [tokenName?_eq_some_iff.2 ⟨hname, hbegins⟩] at hread
    cases hread
  | token name rest hname ih =>
    rw [pieces_token hname]
    exact .token hname ih

/-- Discovery finds the only way to cut a text. -/
theorem cut_iff (text : Text) (parts : List Piece) : Cut text parts ↔ parts = pieces text := by
  constructor
  · intro h
    induction h with
    | done => rfl
    | @plain c rest parts hnone _ ih =>
      have hread : tokenName? (c :: rest) = none := by
        by_contra hread
        obtain ⟨name, hname⟩ := Option.ne_none_iff_exists'.1 hread
        obtain ⟨hname, hbegins⟩ := tokenName?_eq_some_iff.1 hname
        exact hnone name hname hbegins
      rw [pieces_plain hread, ih]
    | token hname _ ih => rw [pieces_token hname, ih]
  · rintro rfl
    exact cut_pieces text

theorem isName_of_mem_pieces {text name : Text} (h : .token name ∈ pieces text) : IsName name := by
  have hcut := cut_pieces text
  generalize pieces text = parts at h hcut
  induction hcut with
  | done => cases h
  | plain _ _ ih =>
    rcases List.mem_cons.1 h with heq | hrest
    · cases heq
    · exact ih hrest
  | token hname _ ih =>
    rcases List.mem_cons.1 h with heq | hrest
    · cases heq
      exact hname
    · exact ih hrest

theorem exists_name_of_mem_tokens {text token : Text} (h : token ∈ tokens text) :
    ∃ name, IsName name ∧ token = signed name := by
  have hmem := h
  rw [tokens, List.mem_eraseDups, List.mem_filterMap] at h
  obtain ⟨piece, -, htoken⟩ := h
  cases piece with
  | plain c => cases htoken
  | token name =>
    obtain rfl := Option.some.inj htoken
    exact ⟨name, isName_of_mem_pieces (mem_tokens_iff.1 hmem), rfl⟩

theorem nodup_eraseDups {α : Type} [BEq α] [LawfulBEq α] (list : List α) :
    list.eraseDups.Nodup := by
  cases list with
  | nil => exact List.nodup_nil
  | cons a rest =>
    rw [List.eraseDups_cons, List.nodup_cons, List.mem_eraseDups]
    exact ⟨by simp, nodup_eraseDups _⟩
termination_by list.length
decreasing_by
  have hfilter := List.length_filter_le (fun b => !b == a) rest
  simp only [List.length_cons]
  omega

theorem nodup_tokens (text : Text) : (tokens text).Nodup := nodup_eraseDups _

theorem nodup_freeTokens (text : Text) (reserved : List Text) : (freeTokens text reserved).Nodup :=
  (nodup_tokens text).filter _

theorem freeTokens_nil (text : Text) : freeTokens text [] = tokens text := by
  simp [freeTokens]

theorem nodup_keys_zip {α β : Type} {keys : List α} (h : keys.Nodup) (values : List β) :
    ((keys.zip values).map Prod.fst).Nodup := by
  have hshort : (keys.take (min keys.length values.length)).length ≤
      (values.take (min keys.length values.length)).length := by
    simp only [List.length_take]
    omega
  rw [List.zip_eq_zip_take_min, List.map_fst_zip hshort]
  exact h.sublist (List.take_sublist _ _)

/-- A free token is filled with the value in its place, and nothing else is filled. -/
theorem get?_paired_eq_some_iff {text : Text} {reserved : List Text} {values : List Value}
    {token written : Text} :
    (Table.paired (freeTokens text reserved) values).get? token = some written ↔
      ∃ (i : Nat) (value : Value), (freeTokens text reserved)[i]? = some token ∧
        values[i]? = some value ∧ written = value.reading := by
  have hnodup := nodup_keys_zip (nodup_freeTokens text reserved) (values.map Value.reading)
  have hentry := OrderedMap.get?_ofList_eq_some_iff hnodup token written
  rw [List.mem_iff_getElem?] at hentry
  refine hentry.trans (exists_congr fun i => ?_)
  rw [List.getElem?_zip_eq_some, List.getElem?_map, Option.map_eq_some_iff]
  constructor
  · rintro ⟨htoken, value, hvalue, rfl⟩
    exact ⟨value, htoken, hvalue, rfl⟩
  · rintro ⟨value, htoken, hvalue, rfl⟩
    exact ⟨htoken, value, hvalue, rfl⟩

def Spells (key name : Text) : Prop := key = name ∨ key = signed name

instance (key name : Text) : Decidable (Spells key name) := inferInstanceAs (Decidable (_ ∨ _))

theorem wrap_of_spells {key name : Text} (hname : IsName name) (h : Spells key name) :
    wrap key = signed name := by
  rcases h with rfl | rfl
  · exact wrap_name hname
  · have hlast : (signed name).getLast? = some '%' := List.getLast?_concat (l := '%' :: name)
    exact if_pos ⟨by simp [signed_eq], rfl, hlast⟩

/-- The value that arguments have for the token of a name: the one of the last key that spells it,
or the one at the place of the token among the distinct tokens. -/
inductive Gives (text : Text) : Args → Text → Value → Prop
  | named {before after : List (Value × Value)} {key value : Value} {name : Text}
      (hkey : Spells key.words name) (hlast : ∀ entry ∈ after, ¬ Spells entry.1.words name) :
      Gives text (.named (before ++ (key, value) :: after)) name value
  | positional {values : List Value} {i : Nat} {name : Text} {value : Value}
      (htoken : (tokens text)[i]? = some (signed name)) (hvalue : values[i]? = some value) :
      Gives text (.positional values) name value

/-- There are values for all tokens: a mapping has names for keys, among them that of each token,
or there are at least as many values as distinct tokens. -/
def Complete (text : Text) : Args → Prop
  | .named entries =>
    (∀ entry ∈ entries, ∃ name, IsName name ∧ Spells entry.1.words name) ∧
      ∀ name, signed name ∈ tokens text → ∃ entry ∈ entries, Spells entry.1.words name
  | .positional values => (tokens text).length ≤ values.length
  | _ => False

theorem exists_last {α : Type} {p : α → Prop} {list : List α} (h : ∃ a ∈ list, p a) :
    ∃ before a after, list = before ++ a :: after ∧ p a ∧ ∀ b ∈ after, ¬ p b := by
  induction list with
  | nil => simp at h
  | cons first rest ih =>
    by_cases hrest : ∃ a ∈ rest, p a
    · obtain ⟨before, a, after, rfl, ha, hafter⟩ := ih hrest
      exact ⟨first :: before, a, after, rfl, ha, hafter⟩
    · have hnone : ∀ b ∈ rest, ¬ p b := fun b hb hpb => hrest ⟨b, hb, hpb⟩
      obtain ⟨a, hmem, ha⟩ := h
      rcases List.mem_cons.1 hmem with rfl | hmem
      · exact ⟨[], a, rest, rfl, ha, hnone⟩
      · exact absurd ha (hnone a hmem)

section Complete

variable {text : Text}

theorem Complete.exists_gives {args : Args} (h : Complete text args) {name : Text}
    (htoken : signed name ∈ tokens text) : ∃ value, Gives text args name value := by
  cases args with
  | none => exact h.elim
  | named entries =>
    obtain ⟨before, entry, after, rfl, hkey, hlast⟩ := exists_last (h.2 name htoken)
    exact ⟨entry.2, .named hkey hlast⟩
  | positional values =>
    obtain ⟨i, hi⟩ := List.getElem?_of_mem htoken
    obtain ⟨hlt, -⟩ := List.getElem?_eq_some_iff.1 hi
    have hvalue : i < values.length := Nat.lt_of_lt_of_le hlt h
    exact ⟨values[i], .positional hi (List.getElem?_eq_getElem hvalue)⟩
  | unsuitable kind => exact h.elim

/-- The names that a table has values for are names of tokens. -/
theorem isName_keys_spelled {entries : List (Value × Value)}
    (hnames : ∀ entry ∈ entries, ∃ name, IsName name ∧ Spells entry.1.words name) :
    ∀ key ∈ (Table.spelled entries).keys, ∃ name, IsName name ∧ key = signed name := by
  intro key hkey
  rw [Table.spelled, OrderedMap.mem_keys_ofList, List.map_map] at hkey
  obtain ⟨entry, hentry, rfl⟩ := List.mem_map.1 hkey
  obtain ⟨name, hname, hspells⟩ := hnames entry hentry
  exact ⟨name, hname, wrap_of_spells hname hspells⟩

/-- The last key that spells a name decides. -/
theorem get?_spelled_of_last {before after : List (Value × Value)} {key value : Value} {name : Text}
    (hnames : ∀ entry ∈ after, ∃ name, IsName name ∧ Spells entry.1.words name)
    (hname : IsName name) (hkey : Spells key.words name)
    (hlast : ∀ entry ∈ after, ¬ Spells entry.1.words name) :
    (Table.spelled (before ++ (key, value) :: after)).get? (signed name) = some value.reading := by
  have hafter : signed name ∉
      (after.map fun entry => (wrap entry.1.words, entry.2.reading)).map Prod.fst := by
    rw [List.map_map]
    intro hmem
    obtain ⟨entry, hentry, hwrap⟩ := List.mem_map.1 hmem
    obtain ⟨other, hother, hspells⟩ := hnames entry hentry
    have hsame : signed other = signed name := (wrap_of_spells hother hspells).symm.trans hwrap
    obtain rfl := signed_injective hsame
    exact hlast entry hentry hspells
  rw [Table.spelled, List.map_append, List.map_cons, wrap_of_spells hname hkey]
  exact OrderedMap.get?_ofList_last hafter

/-- Complete arguments bind names, and to the values that they give. -/
theorem Complete.isName_keys {args : Args} (h : Complete text args) :
    ∀ key ∈ (args.spelled text []).keys, ∃ name, IsName name ∧ key = signed name := by
  cases args with
  | none => exact h.elim
  | named entries => exact isName_keys_spelled h.1
  | positional values =>
    intro key hkey
    have hlength : (tokens text).length ≤ (values.map Value.reading).length := by
      rwa [List.length_map]
    rw [Args.spelled, Table.paired, freeTokens_nil, OrderedMap.mem_keys_ofList,
      List.map_fst_zip hlength] at hkey
    exact exists_name_of_mem_tokens hkey
  | unsuitable kind => exact h.elim

theorem Complete.get?_spelled {args : Args} (h : Complete text args) {name : Text} {value : Value}
    (hname : IsName name) (hgives : Gives text args name value) :
    (args.spelled text []).get? (signed name) = some value.reading := by
  cases hgives with
  | named hkey hlast =>
    apply get?_spelled_of_last _ hname hkey hlast
    intro entry hentry
    exact h.1 entry (List.mem_append_right _ (List.mem_cons_of_mem _ hentry))
  | positional htoken hvalue =>
    rw [← freeTokens_nil] at htoken
    exact get?_paired_eq_some_iff.2 ⟨_, value, htoken, hvalue, rfl⟩

theorem Complete.ne_unsuitable {args : Args} (h : Complete text args) (kind : Text) :
    args ≠ .unsuitable kind := by
  rintro rfl
  exact h

end Complete

/-- Where every token has its value, no token is left to close with the opening sign of another. -/
theorem apart_of_forall_mem {names : List Text} {parts : List Piece}
    (h : ∀ name, .token name ∈ parts → name ∈ names) : Apart names parts := by
  induction parts with
  | nil => trivial
  | cons piece rest ih =>
    have hrest := ih fun name hname => h name (List.mem_cons_of_mem _ hname)
    cases piece with
    | plain c => exact hrest
    | token name => exact ⟨fun hmissing => absurd (h name List.mem_cons_self) hmissing, hrest⟩

/-- A table of names that has all tokens of a text fills each of them, and nothing else. -/
theorem substitute_of_all_tokens {text : Text} {made : Table}
    (hnames : ∀ key ∈ made.keys, ∃ name, IsName name ∧ key = signed name)
    (hall : ∀ name, .token name ∈ pieces text → signed name ∈ made.keys) :
    substitute text made = (pieces text).flatMap (Piece.filled made) := by
  have hrange : made.keys ∈ Set.range (List.map signed) := by
    rw [Set.range_list_map]
    intro key hkey
    obtain ⟨name, -, rfl⟩ := hnames key hkey
    exact ⟨name, rfl⟩
  obtain ⟨names, hkeys⟩ := hrange
  have hmem : ∀ name, name ∈ names ↔ signed name ∈ made.keys := by
    intro name
    rw [← hkeys, List.mem_map_of_injective fun _ _ => signed_injective]
  have hisName : ∀ name ∈ names, IsName name := by
    intro name hname
    obtain ⟨other, hother, heq⟩ := hnames _ ((hmem name).1 hname)
    rwa [signed_injective heq]
  apply substitute_eq_filled hisName (fun key => by rw [hkeys])
  exact apart_of_forall_mem fun name hname => (hmem name).2 (hall name hname)

def Piece.bound (value : Text → Value) : Piece → Text
  | .plain c => [c]
  | .token name => (value name).reading

/-- A text is cut in one way, into the tokens that discovery finds and single characters. If the
arguments are complete there is a value for each token. If they can be written too, binding writes
the values in the place of every occurrence and leaves the characters as they are; if they cannot,
it fails, also where only a value for another token is too long. -/
theorem bind_fills_every_token {text : Text} {args : Args} (h : Complete text args) :
    ∃ parts, (∀ other, Cut text other ↔ other = parts) ∧
      (∀ name, signed name ∈ tokens text ↔ .token name ∈ parts) ∧
      (∃ value : Text → Value, ∀ name, .token name ∈ parts → Gives text args name (value name)) ∧
      ∀ value : Text → Value,
        (∀ name, .token name ∈ parts → Gives text args name (value name)) →
          bind text args =
            if args.isWritable text [] then .ok (parts.flatMap (Piece.bound value))
            else .error .tooManyDigits := by
  have hgives : ∀ name, .token name ∈ pieces text → ∃ value, Gives text args name value :=
    fun name hname => h.exists_gives (mem_tokens_iff.2 hname)
  refine ⟨pieces text, cut_iff text, fun name => mem_tokens_iff, ?_, ?_⟩
  · have : Nonempty Value := ⟨.absent⟩
    choose! value hvalue using hgives
    exact ⟨value, hvalue⟩
  · intro value hvalue
    have hfound : ∀ name, .token name ∈ pieces text →
        (args.spelled text []).get? (signed name) = some (value name).reading :=
      fun name hname => h.get?_spelled (isName_of_mem_pieces hname) (hvalue name hname)
    have hfilled : ∀ piece ∈ pieces text,
        piece.filled (args.spelled text []) = piece.bound value := by
      intro piece hpiece
      cases piece with
      | plain c => rfl
      | token name => rw [Piece.filled, hfound name hpiece]; rfl
    have hall : ∀ name, .token name ∈ pieces text → signed name ∈ (args.spelled text []).keys :=
      fun name hname => OrderedMap.mem_keys_of_get? (hfound name hname)
    cases hwritable : args.isWritable text [] with
    | false => exact bind_of_not_isWritable h.ne_unsuitable hwritable
    | true =>
      rw [bind_of_isWritable hwritable, substitute_of_all_tokens h.isName_keys hall,
        List.flatMap_congr hfilled]
      rfl

def neighbours : List (Value × Value) :=
  [(.text "c", .text "old"), (.text "b", .text "X"), (.text "a", .text "%c%"),
    (.text "%c%", .number (.integer 2))]

/-- The token between two others is plain text, and what is filled in is not read again. -/
theorem bind_fills_every_token_neighbours :
    Complete "%a%b%c%%a%" (.named neighbours) ∧
      bind "%a%b%c%%a%" (.named neighbours) = .ok "%c%b2%c%" ∧
      Complete "%a%b%c%%a%" (.positional [.text "x", .text "y", .text "z"]) ∧
      bind "%a%b%c%%a%" (.positional [.text "x", .text "y", .text "z"]) = .ok "xbyx" := by
  have htokens : tokens "%a%b%c%%a%" = [signed "a", signed "c"] := rfl
  have hparts : pieces "%a%b%c%%a%" = [.token "a", .plain 'b', .token "c", .token "a"] := rfl
  have hnamed : Complete "%a%b%c%%a%" (.named neighbours) := by
    constructor
    · intro entry hentry
      refine ⟨if entry.1.words = signed "c" then "c" else entry.1.words, ?_⟩
      revert entry
      decide
    · intro name hname
      rw [htokens] at hname
      rcases List.mem_cons.1 hname with heq | hname
      · obtain rfl := signed_injective heq
        decide
      · obtain rfl := signed_injective (List.mem_singleton.1 hname)
        decide
  have hpositional :
      Complete "%a%b%c%%a%" (.positional [.text "x", .text "y", .text "z"]) := by
    rw [Complete, htokens]
    decide
  have hnames : ∀ name : Text, .token name ∈ pieces "%a%b%c%%a%" → name = "a" ∨ name = "c" := by
    intro name hname
    rw [hparts] at hname
    simp only [List.mem_cons, Piece.token.injEq, List.not_mem_nil, reduceCtorEq] at hname
    tauto
  refine ⟨hnamed, ?_, hpositional, ?_⟩
  · obtain ⟨parts, hcut, -, -, hbind⟩ := bind_fills_every_token hnamed
    obtain rfl := (hcut _).1 (cut_pieces _)
    refine hbind (fun name => if name = "a" then .text "%c%" else .number (.integer 2)) ?_
    intro name hname
    rcases hnames name hname with rfl | rfl
    · exact @Gives.named _ (neighbours.take 2) (neighbours.drop 3) (.text "a") _ _ (.inl rfl)
        (by decide)
    · exact @Gives.named _ (neighbours.take 3) [] (.text "%c%") _ _ (.inr rfl) (by decide)
  · obtain ⟨parts, hcut, -, -, hbind⟩ := bind_fills_every_token hpositional
    obtain rfl := (hcut _).1 (cut_pieces _)
    refine hbind (fun name => if name = "a" then .text "x" else .text "y") ?_
    intro name hname
    rcases hnames name hname with rfl | rfl
    · exact .positional (i := 0) rfl rfl
    · exact .positional (i := 1) rfl rfl

/-- A value without a token is not left out of account if it is too long, and a text is no sequence
of its characters. -/
theorem bind_extra_too_long :
    Complete "%a%" (.named [(.text "a", .text "x"),
        (.text "zzz", .number (.integer tooLong))]) ∧
      bind "%a%" (.named [(.text "a", .text "x"),
        (.text "zzz", .number (.integer tooLong))]) = .error .tooManyDigits ∧
      bind "%a%" (.unsuitable "str") = .error (.unsuitable "str") := by
  refine ⟨⟨?_, ?_⟩, ?_, rfl⟩
  · intro entry hentry
    rcases List.mem_cons.1 hentry with rfl | hentry
    · exact ⟨"a", by decide, .inl rfl⟩
    · obtain rfl := List.mem_singleton.1 hentry
      exact ⟨"zzz", by decide, .inl rfl⟩
  · intro name hname
    have htokens : tokens "%a%" = [signed "a"] := rfl
    rw [htokens] at hname
    obtain rfl := signed_injective (List.mem_singleton.1 hname)
    exact ⟨_, List.mem_cons_self, .inl rfl⟩
  · exact bind_of_not_isWritable (Args.named_suitable _)
      (Args.not_isWritable_named (List.mem_cons_of_mem _ List.mem_cons_self)
        (isWritableEntry_tooLong "zzz") ..)

end Phrasebook.Placeholder
