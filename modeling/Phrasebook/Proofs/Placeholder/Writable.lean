import Phrasebook.Placeholder.Binding

/-!
Which arguments can be written. An integer can be if it has few enough digits; other values always
can. A table is made if and only if all keys and values that go into it can be written, and then it
is the table of their words, however long these are.
-/
namespace Phrasebook

namespace Placeholder

def isWritableEntry (entry : Value × Value) : Bool := entry.1.isWritable && entry.2.isWritable

theorem entryOf_words (entry : Value × Value) :
    entryOf (entry.1.toText.map wrap) entry.2 =
      if isWritableEntry entry then .ok (wrap entry.1.words, entry.2.reading) else .error ⟨⟩ := by
  obtain ⟨key, value⟩ := entry
  unfold isWritableEntry entryOf Value.toText Value.inserted Value.written
  cases key.isWritable <;> cases value.isWritable <;> rfl

theorem entryOf_token (token : Text) (value : Value) :
    entryOf (.ok token) value =
      if value.isWritable then .ok (token, value.reading) else .error ⟨⟩ := by
  unfold entryOf Value.inserted Value.written
  cases value.isWritable <;> rfl

/-- A list is gone through to its end if every member passes. -/
theorem mapM_of_passes {α β : Type} {f : α → Except TooManyDigits β} {passes : α → Bool}
    {value : α → β} (hf : ∀ a, f a = if passes a then .ok (value a) else .error ⟨⟩)
    (list : List α) :
    list.mapM f = if list.all passes then .ok (list.map value) else .error ⟨⟩ := by
  induction list with
  | nil => rfl
  | cons a rest ih =>
    rw [List.mapM_cons, hf, ih, List.all_cons]
    cases passes a with
    | false => rfl
    | true => cases rest.all passes <;> rfl

/-- The table of a mapping, whether or not it can be written. -/
def Table.spelled (entries : List (Value × Value)) : Table :=
  OrderedMap.ofList (entries.map fun entry => (wrap entry.1.words, entry.2.reading))

theorem ofNamed_eq (entries : List (Value × Value)) :
    Table.ofNamed entries =
      if entries.all isWritableEntry then .ok (Table.spelled entries) else .error ⟨⟩ := by
  rw [Table.ofNamed, mapM_of_passes entryOf_words]
  cases entries.all isWritableEntry <;> rfl

def Table.paired (free : List Text) (values : List Value) : Table :=
  OrderedMap.ofList (free.zip (values.map Value.reading))

theorem all_zip_isWritable (free : List Text) (values : List Value) :
    ((free.zip values).all fun entry => entry.2.isWritable) =
      (values.take free.length).all Value.isWritable := by
  induction free generalizing values with
  | nil => rfl
  | cons token free ih =>
    cases values with
    | nil => rfl
    | cons value values => simp [ih values]

/-- Only the values that have a token are written. -/
theorem ofPositional_eq (text : Text) (reserved : List Text) (values : List Value) :
    Table.ofPositional text reserved values =
      if (values.take (freeTokens text reserved).length).all Value.isWritable then
        .ok (Table.paired (freeTokens text reserved) values)
      else .error ⟨⟩ := by
  have hmap : ((freeTokens text reserved).zip values).map
      (fun entry => (entry.1, entry.2.reading)) =
        (freeTokens text reserved).zip (values.map Value.reading) :=
    List.zip_map_right.symm
  rw [Table.ofPositional, mapM_of_passes fun entry => entryOf_token entry.1 entry.2,
    all_zip_isWritable, hmap]
  cases (values.take (freeTokens text reserved).length).all Value.isWritable <;> rfl

/-- Whether all that is bound can be written. Arguments that are no collection cannot. -/
def Args.isWritable (text : Text) (reserved : List Text) : Args → Bool
  | .none => true
  | .named entries => entries.all isWritableEntry
  | .positional values => (values.take (freeTokens text reserved).length).all Value.isWritable
  | .unsuitable _ => false

/-- The least integer that is too long is too long for a mapping. -/
theorem isWritableEntry_tooLong (name : Text) :
    isWritableEntry (.text name, .number (.integer tooLong)) = false := by
  simp [isWritableEntry, Value.isWritable, Number.not_isWritable_tooLong]

theorem Args.not_isWritable_named {entries : List (Value × Value)} {entry : Value × Value}
    (hentry : entry ∈ entries) (hlong : isWritableEntry entry = false) (text : Text)
    (reserved : List Text) : (Args.named entries).isWritable text reserved = false :=
  List.all_eq_false.2 ⟨entry, hentry, Bool.eq_false_iff.1 hlong⟩

theorem Args.named_suitable (entries : List (Value × Value)) (kind : Text) :
    named entries ≠ unsuitable kind :=
  Args.noConfusion

theorem Args.positional_suitable (values : List Value) (kind : Text) :
    positional values ≠ unsuitable kind :=
  Args.noConfusion

def Args.spelled (text : Text) (reserved : List Text) : Args → Table
  | .named entries => .spelled entries
  | .positional values => .paired (freeTokens text reserved) values
  | _ => .empty

theorem table_of_isWritable {text : Text} {args : Args} {reserved : List Text}
    (h : args.isWritable text reserved) :
    table text args reserved = .ok (args.spelled text reserved) := by
  cases args with
  | none => rfl
  | named entries =>
    have hall : entries.all isWritableEntry := h
    rw [table, ofNamed_eq, if_pos hall]
    rfl
  | positional values =>
    have hall : (values.take (freeTokens text reserved).length).all Value.isWritable := h
    rw [table, ofPositional_eq, if_pos hall]
    rfl
  | unsuitable kind => cases h

theorem table_of_not_isWritable {text : Text} {args : Args} {reserved : List Text}
    (hargs : ∀ kind, args ≠ .unsuitable kind) (h : args.isWritable text reserved = false) :
    table text args reserved = .error .tooManyDigits := by
  cases args with
  | none => cases h
  | named entries =>
    have hnot : ¬ entries.all isWritableEntry := Bool.eq_false_iff.1 h
    rw [table, ofNamed_eq, if_neg hnot]
    rfl
  | positional values =>
    have hnot : ¬ (values.take (freeTokens text reserved).length).all Value.isWritable :=
      Bool.eq_false_iff.1 h
    rw [table, ofPositional_eq, if_neg hnot]
    rfl
  | unsuitable kind => exact absurd rfl (hargs kind)

end Placeholder
end Phrasebook
