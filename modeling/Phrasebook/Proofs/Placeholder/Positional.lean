import Mathlib.Data.List.Nodup
import Phrasebook.Proofs.Placeholder.Filling

/-!
Values without names. They bind to the distinct tokens of a text in turn, leaving out the reserved
ones, until the tokens or the values run out. So they are a mapping: each value is under the name
of its token, and no name occurs twice. Values for which there is no token are not looked at.
-/
namespace Phrasebook.Placeholder

def bareName (token : Text) : Text := (token.drop 1).dropLast

theorem bareName_signed (name : Text) : bareName (signed name) = name := by
  rw [signed_eq, bareName, List.drop_one, List.tail_cons, List.dropLast_concat]

/-- Each value under the bare name of the token in its place, as far as there are both. -/
def byName (tokens : List Text) (values : List Value) : List (Value × Value) :=
  (tokens.map fun token => Value.text (bareName token)).zip values

theorem wrap_bareName {text token : Text} (h : token ∈ tokens text) :
    wrap (bareName token) = token := by
  obtain ⟨name, hname, rfl⟩ := exists_name_of_mem_tokens h
  rw [bareName_signed, wrap_name hname]

theorem wrap_token {text token : Text} (h : token ∈ tokens text) : wrap token = token := by
  obtain ⟨name, hname, rfl⟩ := exists_name_of_mem_tokens h
  exact wrap_of_spells hname (Or.inr rfl)

theorem mem_tokens_of_free {text token : Text} {reserved : List Text}
    (h : token ∈ freeTokens text reserved) : token ∈ tokens text :=
  (List.mem_filter.1 h).1

/-- However the free tokens are spelled as keys of a mapping, the table is the same. -/
theorem ofPositional_eq_ofNamed (text : Text) (reserved : List Text) (spell : Text → Text)
    (hspell : ∀ token ∈ freeTokens text reserved, wrap (spell token) = token)
    (values : List Value) :
    Table.ofPositional text reserved values =
      Table.ofNamed
        (((freeTokens text reserved).map fun token => .text (spell token)).zip values) := by
  have hentries : ∀ free : List Text, (∀ token ∈ free, wrap (spell token) = token) →
      ∀ values : List Value,
        ((free.zip values).mapM fun entry => entryOf (.ok entry.1) entry.2) =
          ((free.map fun token => Value.text (spell token)).zip values).mapM fun entry =>
            entryOf (entry.1.toText.map wrap) entry.2 := by
    intro free hfree
    induction free with
    | nil => exact fun values => rfl
    | cons token free ih =>
      intro values
      obtain ⟨htoken, hrest⟩ := List.forall_mem_cons.1 hfree
      cases values with
      | nil => rfl
      | cons value values =>
        have hkey : (Value.text (spell token)).toText.map wrap = .ok token :=
          congrArg Except.ok htoken
        rw [List.map_cons, List.zip_cons_cons, List.zip_cons_cons, List.mapM_cons, List.mapM_cons,
          ih hrest, hkey]
  rw [Table.ofPositional, Table.ofNamed, hentries _ hspell]

theorem place_of_new {key value : Value} {entries : List (Value × Value)}
    (h : ∀ entry ∈ entries, entry.1.sameKey key = false) :
    place key value entries = entries ++ [(key, value)] := by
  induction entries with
  | nil => rfl
  | cons entry rest ih =>
    obtain ⟨hentry, hrest⟩ := List.forall_mem_cons.1 h
    rw [place, hentry, ih hrest]
    rfl

/-- Setting pairs one after the other keeps them all if no two of them have the same key. -/
theorem foldl_place_of_new {entries pairs : List (Value × Value)}
    (h : (entries ++ pairs).Pairwise fun first second => first.1.sameKey second.1 = false) :
    pairs.foldl (fun entries pair => place pair.1 pair.2 entries) entries = entries ++ pairs := by
  induction pairs generalizing entries with
  | nil => exact (List.append_nil _).symm
  | cons pair rest ih =>
    have hnew : ∀ entry ∈ entries, entry.1.sameKey pair.1 = false :=
      fun entry hentry => (List.pairwise_append.1 h).2.2 entry hentry pair List.mem_cons_self
    rw [List.append_cons] at h ⊢
    rw [List.foldl_cons, place_of_new hnew]
    exact ih h

/-- Pairs with different texts for keys are a mapping as they are. -/
theorem ofPairs_zip_texts {names : List Text} (h : names.Nodup) (values : List Value) :
    Args.ofPairs ((names.map Value.text).zip values) =
      .ok (.named ((names.map Value.text).zip values)) := by
  have htext : ∀ pair ∈ (names.map Value.text).zip values, ∃ name, pair.1 = .text name := by
    intro pair hpair
    obtain ⟨name, -, hname⟩ := List.mem_map.1 (List.of_mem_zip hpair).1
    exact ⟨name, hname.symm⟩
  have hkeys : (((names.map Value.text).zip values).all fun pair => pair.1.isKey) = true := by
    rw [List.all_eq_true]
    intro pair hpair
    obtain ⟨name, hname⟩ := htext pair hpair
    rw [hname]
    rfl
  have hnodup := nodup_keys_zip (List.Nodup.map (fun _ _ => Value.text.inj) h) values
  have hfresh : ((names.map Value.text).zip values).Pairwise
      fun first second => first.1.sameKey second.1 = false := by
    refine (List.pairwise_map.1 hnodup).imp_of_mem ?_
    intro first second hfirst hsecond hne
    obtain ⟨name, hname⟩ := htext first hfirst
    obtain ⟨other, hother⟩ := htext second hsecond
    rw [hname, hother] at hne ⊢
    exact beq_eq_false_iff_ne.2 fun heq => hne (congrArg Value.text heq)
  rw [Args.ofPairs, if_pos hkeys, foldl_place_of_new hfresh]
  rfl

theorem nodup_bareNames (text : Text) : ((tokens text).map bareName).Nodup := by
  refine (List.nodup_map_iff_inj_on (nodup_tokens text)).2 ?_
  intro token htoken other hother heq
  rw [← wrap_bareName htoken, heq, wrap_bareName hother]

theorem zip_take_length {α β : Type} (keys : List α) (values : List β) :
    keys.zip (values.take keys.length) = keys.zip values := by
  induction keys generalizing values with
  | nil => rfl
  | cons key keys ih =>
    cases values with
    | nil => rfl
    | cons value values => simp [ih values]

theorem ofPositional_take (text : Text) (values : List Value) :
    Table.ofPositional text [] (values.take (tokens text).length) =
      Table.ofPositional text [] values := by
  rw [Table.ofPositional, Table.ofPositional, freeTokens_nil, zip_take_length]

/-- Values without names bind as the mapping does that has each of them under the bare name of the
token in its place; the tokens are distinct, so this is a mapping. The values beyond the number of
tokens make no difference. There is a text if and only if all the values up to this number can be
written, whatever the others are. -/
theorem bind_positional_eq_named (text : Text) (values : List Value) :
    Args.ofPairs (byName (tokens text) values) = .ok (.named (byName (tokens text) values)) ∧
    bind text (.positional values) = bind text (.named (byName (tokens text) values)) ∧
    bind text (.positional values) =
      bind text (.positional (values.take (tokens text).length)) ∧
    ((∃ bound, bind text (.positional values) = .ok bound) ↔
      ∀ value ∈ values.take (tokens text).length, value.isWritable) := by
  have hbare : byName (tokens text) values =
      (((tokens text).map bareName).map Value.text).zip values := by
    rw [byName, List.map_map]
    rfl
  refine ⟨?_, ?_, ?_, ?_⟩
  · rw [hbare]
    exact ofPairs_zip_texts (nodup_bareNames text) values
  · have hnamed := ofPositional_eq_ofNamed text [] bareName
      (fun token htoken => wrap_bareName (mem_tokens_of_free htoken)) values
    rw [freeTokens_nil] at hnamed
    rw [bind, bind, table, table, hnamed]
    rfl
  · rw [bind, bind, table, table, ofPositional_take]
  · rw [← List.all_eq_true, ← freeTokens_nil]
    constructor
    · rintro ⟨bound, hbound⟩
      by_contra hnot
      have hlong : (Args.positional values).isWritable text [] = false := Bool.eq_false_iff.2 hnot
      have herror : bind text (.positional values) = .error .tooManyDigits :=
        bind_of_not_isWritable (Args.positional_suitable values) hlong
      rw [herror] at hbound
      cases hbound
    · intro hall
      have hwritable : (Args.positional values).isWritable text [] := hall
      exact ⟨_, bind_of_isWritable hwritable⟩

example : byName (tokens "%b% %%a%%b%") [.text "x", .text "y", .text "z"] =
    [(.text "b", .text "x"), (.text "a", .text "y")] := rfl

end Phrasebook.Placeholder
