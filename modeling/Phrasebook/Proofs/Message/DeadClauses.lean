import Phrasebook.Proofs.Message.Interleaving
import Phrasebook.Proofs.Message.Repeats

/-!
Clauses that are reported as declared before are dead. They hold the same numbers as the first
clause that is written like them, so nothing is left for them to take. A message from which they are
deleted has the same standard clauses in the same order and gives every count the text that it had
before.
-/
namespace Phrasebook

open Text

/-- A list without the elements whose key was seen before, for those keys that are to be there only
once. -/
def dropRepeats {α : Type} (key? : α → Option Text) (once : Text → Bool) :
    List Text → List α → List α
  | _, [] => []
  | seen, a :: rest =>
    match key? a with
    | none => a :: dropRepeats key? once seen rest
    | some key =>
      if seen.contains key && once key then dropRepeats key? once seen rest
      else a :: dropRepeats key? once (key :: seen) rest

section DropRepeats

variable {α β : Type} {key? : α → Option Text} {key : Text} {once : Text → Bool}
  {seen : List Text} {a : α}

theorem isRepeat_iff : (seen.contains key && once key) = true ↔ key ∈ seen ∧ once key := by
  rw [Bool.and_eq_true, List.contains_iff_mem]

theorem dropRepeats_cons_none (h : key? a = none) (rest : List α) :
    dropRepeats key? once seen (a :: rest) = a :: dropRepeats key? once seen rest := by
  rw [dropRepeats, h]

theorem dropRepeats_cons_repeat (h : key? a = some key) (hrepeat : key ∈ seen ∧ once key)
    (rest : List α) :
    dropRepeats key? once seen (a :: rest) = dropRepeats key? once seen rest := by
  simp only [dropRepeats, h, if_pos (isRepeat_iff.2 hrepeat)]

theorem dropRepeats_cons_new (h : key? a = some key) (hnew : ¬(key ∈ seen ∧ once key))
    (rest : List α) :
    dropRepeats key? once seen (a :: rest) = a :: dropRepeats key? once (key :: seen) rest := by
  simp only [dropRepeats, h, if_neg (mt isRepeat_iff.1 hnew)]

theorem dropRepeats_sublist (seen : List Text) (list : List α) :
    (dropRepeats key? once seen list).Sublist list := by
  fun_induction dropRepeats key? once seen list with
  | case1 => exact List.Sublist.refl _
  | case2 seen a rest _ ih => exact ih.cons_cons a
  | case3 seen a rest key _ _ ih => exact ih.cons a
  | case4 seen a rest key _ _ ih => exact ih.cons_cons a

/-- The first element is no repeat. -/
theorem dropRepeats_eq_nil_iff (list : List α) :
    dropRepeats key? once [] list = [] ↔ list = [] := by
  cases list with
  | nil => exact Iff.rfl
  | cons a rest =>
    cases h : key? a with
    | none => simp [dropRepeats_cons_none h]
    | some key => simp [dropRepeats_cons_new h]

/-- What is picked of the elements is left out with them, if it carries the keys. -/
theorem filterMap_dropRepeats {pick : α → Option β} {key' : β → Option Text}
    (hkey : ∀ a, key? a = (pick a).bind key') (seen : List Text) (list : List α) :
    (dropRepeats key? once seen list).filterMap pick =
      dropRepeats key' once seen (list.filterMap pick) := by
  induction list generalizing seen with
  | nil => rfl
  | cons a rest ih =>
    have ha := hkey a
    cases hpick : pick a with
    | none =>
      rw [hpick] at ha
      rw [dropRepeats_cons_none ha, List.filterMap_cons_none hpick,
        List.filterMap_cons_none hpick, ih]
    | some b =>
      rw [hpick, Option.bind_some] at ha
      rw [List.filterMap_cons_some hpick]
      cases hb : key' b with
      | none =>
        rw [dropRepeats_cons_none (ha.trans hb), dropRepeats_cons_none hb,
          List.filterMap_cons_some hpick, ih]
      | some key =>
        by_cases hrepeat : key ∈ seen ∧ once key
        · rw [dropRepeats_cons_repeat (ha.trans hb) hrepeat, dropRepeats_cons_repeat hb hrepeat, ih]
        · rw [dropRepeats_cons_new (ha.trans hb) hrepeat, dropRepeats_cons_new hb hrepeat,
            List.filterMap_cons_some hpick, ih]

theorem dropRepeats_map {key' : β → Option Text} (f : α → β) (seen : List Text) (list : List α) :
    dropRepeats key' once seen (list.map f) =
      (dropRepeats (fun a => key' (f a)) once seen list).map f := by
  have hpicked : (dropRepeats (fun a => key' (f a)) once seen list).filterMap (some ∘ f) =
      dropRepeats key' once seen (list.filterMap (some ∘ f)) :=
    filterMap_dropRepeats (fun _ => rfl) seen list
  rw [List.filterMap_eq_map] at hpicked
  exact hpicked.symm

/-- Elements that have no key stay. -/
theorem filterMap_dropRepeats_of_none {pick : α → Option β}
    (hpick : ∀ a, (key? a).isSome → pick a = none) (seen : List Text) (list : List α) :
    (dropRepeats key? once seen list).filterMap pick = list.filterMap pick := by
  fun_induction dropRepeats key? once seen list with
  | case1 => rfl
  | case2 seen a rest _ ih => rw [List.filterMap_cons, ih, List.filterMap_cons]
  | case3 seen a rest key hkey _ ih =>
    rw [List.filterMap_cons_none (hpick a (by rw [hkey]; rfl)), ih]
  | case4 seen a rest key _ _ ih => rw [List.filterMap_cons, ih, List.filterMap_cons]

/-- The first element with a property that goes by the keys is found as before: a repeat has the
property only if an earlier element has it. -/
theorem find?_dropRepeats {q : α → Bool} {list : List α}
    (hsame : ∀ a ∈ list, ∀ b ∈ list, (key? a).isSome → key? a = key? b → q a = q b)
    (hseen : ∀ a ∈ list, ∀ key ∈ seen, key? a = some key → q a = false) :
    (dropRepeats key? once seen list).find? q = list.find? q := by
  induction list generalizing seen with
  | nil => rfl
  | cons a rest ih =>
    have hrest : ∀ {later : List Text},
        (∀ b ∈ rest, ∀ key ∈ later, key? b = some key → q b = false) →
        (dropRepeats key? once later rest).find? q = rest.find? q :=
      ih fun b hb c hc => hsame b (List.mem_cons_of_mem a hb) c (List.mem_cons_of_mem a hc)
    have hlater : ∀ b ∈ rest, ∀ key ∈ seen, key? b = some key → q b = false :=
      fun b hb => hseen b (List.mem_cons_of_mem a hb)
    cases hkey : key? a with
    | none => rw [dropRepeats_cons_none hkey, List.find?_cons, hrest hlater, List.find?_cons]
    | some key =>
      by_cases hrepeat : key ∈ seen ∧ once key
      · have hq := hseen a List.mem_cons_self key hrepeat.1 hkey
        rw [dropRepeats_cons_repeat hkey hrepeat, hrest hlater,
          List.find?_cons_of_neg (Bool.eq_false_iff.1 hq)]
      · rw [dropRepeats_cons_new hkey hrepeat]
        cases hq : q a with
        | true => rw [List.find?_cons_of_pos hq, List.find?_cons_of_pos hq]
        | false =>
          rw [List.find?_cons_of_neg (Bool.eq_false_iff.1 hq),
            List.find?_cons_of_neg (Bool.eq_false_iff.1 hq)]
          refine hrest fun b hb key' hkey' hb' => ?_
          rcases List.mem_cons.1 hkey' with rfl | hmem
          · rw [← hq]
            exact hsame b (List.mem_cons_of_mem a hb) a List.mem_cons_self (by rw [hb']; rfl)
              (hb'.trans hkey.symm)
          · exact hlater b hb key' hmem hb'

theorem filter_cons_key (h : key? a = some key) (rest : List α) :
    (a :: rest).filter (key? · = some key) = a :: rest.filter (key? · = some key) :=
  List.filter_cons_of_pos (decide_eq_true h)

theorem filter_cons_none (h : key? a = none) (rest : List α) :
    (a :: rest).filter (key? · = some key) = rest.filter (key? · = some key) :=
  List.filter_cons_of_neg (by simp [h])

theorem filter_cons_other {other : Text} (h : key? a = some other) (hne : other ≠ key)
    (rest : List α) :
    (a :: rest).filter (key? · = some key) = rest.filter (key? · = some key) :=
  List.filter_cons_of_neg (by simp [h, hne])

/-- Of a key that may be there more than once, all elements stay. -/
theorem filter_dropRepeats_of_not_once (honce : once key = false) (seen : List Text)
    (list : List α) :
    (dropRepeats key? once seen list).filter (key? · = some key) =
      list.filter (key? · = some key) := by
  fun_induction dropRepeats key? once seen list with
  | case1 => rfl
  | case2 seen a rest _ ih => rw [List.filter_cons, ih, List.filter_cons]
  | case3 seen a rest other hkey hrepeat ih =>
    have hne : other ≠ key := by
      rintro rfl
      exact Bool.eq_false_iff.1 honce (isRepeat_iff.1 hrepeat).2
    rw [filter_cons_other hkey hne, ih]
  | case4 seen a rest other _ _ ih => rw [List.filter_cons, ih, List.filter_cons]

theorem filter_dropRepeats_of_mem (honce : once key) (hmem : key ∈ seen) (list : List α) :
    (dropRepeats key? once seen list).filter (key? · = some key) = [] := by
  fun_induction dropRepeats key? once seen list with
  | case1 => rfl
  | case2 seen a rest hkey ih => rw [filter_cons_none hkey, ih hmem]
  | case3 seen a rest other _ _ ih => exact ih hmem
  | case4 seen a rest other hkey hnew ih =>
    have hne : other ≠ key := by
      rintro rfl
      exact hnew (isRepeat_iff.2 ⟨hmem, honce⟩)
    rw [filter_cons_other hkey hne, ih (List.mem_cons_of_mem other hmem)]

/-- Of a key that is to be there once, the first element stays. -/
theorem filter_dropRepeats_of_not_mem (honce : once key) (hmem : key ∉ seen) (list : List α) :
    (dropRepeats key? once seen list).filter (key? · = some key) =
      (list.filter (key? · = some key)).take 1 := by
  fun_induction dropRepeats key? once seen list with
  | case1 => rfl
  | case2 seen a rest hkey ih => rw [filter_cons_none hkey, filter_cons_none hkey, ih hmem]
  | case3 seen a rest other hkey hrepeat ih =>
    have hne : other ≠ key := by
      rintro rfl
      exact hmem (isRepeat_iff.1 hrepeat).1
    rw [filter_cons_other hkey hne, ih hmem]
  | case4 seen a rest other hkey _ ih =>
    by_cases hsame : other = key
    · subst hsame
      rw [filter_cons_key hkey, filter_cons_key hkey,
        filter_dropRepeats_of_mem honce List.mem_cons_self, List.take_succ_cons, List.take_zero]
    · have hnew : key ∉ other :: seen := mt List.mem_cons.1 (not_or.2 ⟨Ne.symm hsame, hmem⟩)
      rw [filter_cons_other hkey hsame, filter_cons_other hkey hsame, ih hnew]

end DropRepeats

def compactSource (clause : Interval × Text) : Text := squeeze clause.1.source

def Clause.key? (clause : Clause) : Option Text := clause.explicit?.map compactSource

namespace Message

/-- The interval that a part of a message begins with, as it is written without white space. -/
def keyAt? (part : Text) : Option Text :=
  match Interval.scan (trim part) with
  | .ok (some (interval, _)) => some (squeeze interval.source)
  | _ => none

/-- A message without the parts that repeat an interval, for those intervals that are to be there
only once. -/
def withoutRepeats (once : Text → Bool) (text : Text) : Text :=
  join ['|'] (dropRepeats keyAt? once [] (split '|' text))

def pruned (message : Message) (once : Text → Bool) (source : Text) : Message where
  source := source
  clauses := dropRepeats Clause.key? once [] message.clauses

theorem keyAt?_of_read {part : Text} {clause : Clause} (h : Clause.read (trim part) = .ok clause) :
    keyAt? part = clause.key? := by
  rcases Clause.cases_of_read h with ⟨hscan, rfl⟩ | ⟨interval, cursor, hscan, rfl⟩
  · rw [keyAt?, hscan]
    rfl
  · rw [keyAt?, hscan]
    rfl

theorem keyAt?_text (form : Spaced Clause.Form) :
    keyAt? (form.text Clause.Form.text) = form.item.clause.key? :=
  keyAt?_of_read (Clause.Form.read_trim_text form)

/-- A message that is written by forms is, without its repeats, written by those that are left. -/
theorem withoutRepeats_write (once : Text → Bool) {forms : List (Spaced Clause.Form)}
    (h : forms ≠ []) :
    withoutRepeats once (write forms) =
      write (dropRepeats (·.item.clause.key?) once [] forms) := by
  have hparts : split '|' (write forms) = forms.map (Spaced.text Clause.Form.text) :=
    split_write h
  rw [withoutRepeats, hparts, dropRepeats_map, write]
  simp only [keyAt?_text]

theorem read_withoutRepeats (once : Text → Bool) {text : Text} {message : Message}
    (h : read text = .ok message) :
    read (withoutRepeats once text) = .ok (message.pruned once (withoutRepeats once text)) := by
  obtain ⟨forms, rfl, -, hclauses⟩ := exists_write_of_read h
  have hne : forms ≠ [] := by
    rintro rfl
    have hlength := length_clauses_of_read h
    rw [hclauses, length_segments] at hlength
    cases hlength
  rw [pruned, withoutRepeats_write once hne, hclauses, dropRepeats_map]
  exact read_write_eq (mt (dropRepeats_eq_nil_iff forms).1 hne)

theorem explicit_pruned (once : Text → Bool) (source : Text) (message : Message) :
    (message.pruned once source).explicit =
      dropRepeats (fun clause => some (compactSource clause)) once [] message.explicit := by
  have hkey : ∀ clause : Clause,
      clause.key? = clause.explicit?.bind fun clause => some (compactSource clause) := by
    intro clause
    rw [Clause.key?, Option.map_eq_bind]
    rfl
  exact filterMap_dropRepeats hkey [] message.clauses

theorem standard_pruned (once : Text → Bool) (source : Text) (message : Message) :
    (message.pruned once source).standard =
      message.standard := by
  have hpick : ∀ clause : Clause, clause.key?.isSome → clause.standard? = none := by
    intro clause hclause
    cases clause with
    | explicit interval text => rfl
    | standard text => cases hclause
  exact filterMap_dropRepeats_of_none hpick [] message.clauses

/-- Clauses whose intervals are written alike have the same interval. -/
theorem shape_eq_of_compactSource_eq {text : Text} {message : Message} (h : read text = .ok message)
    {clause other : Interval × Text} (hclause : clause ∈ message.explicit)
    (hother : other ∈ message.explicit) (hsource : compactSource clause = compactSource other) :
    clause.1.shape = other.1.shape := by
  obtain ⟨form, hform⟩ := exists_form_of_mem_explicit h hclause
  obtain ⟨form', hform'⟩ := exists_form_of_mem_explicit h hother
  rw [compactSource, compactSource, ← hform, ← hform'] at hsource
  rw [← hform, ← hform']
  exact ((Interval.Form.squeeze_eq_iff form form').1 hsource).1

/-- At any place a message chooses as it does without its repeats. -/
theorem choose?_pruned (once : Text → Bool) (source : Text) {text : Text} {message : Message}
    (h : read text = .ok message) (place : Point) (language : Text) :
    message.choose? place language =
      (message.pruned once source).choose? place language := by
  refine choose?_congr ?_ ?_ (standard_pruned once source message).symm language
  · rw [explicit_pruned]
    refine (find?_dropRepeats ?_ nofun).symm
    intro clause hclause other hother _ hsource
    rw [shape_eq_of_compactSource_eq h hclause hother (Option.some.inj hsource)]
  · rw [explicit_pruned, dropRepeats_eq_nil_iff]

/-- Of the clauses with one interval the first stays, or all of them if repeats of it are allowed.
-/
theorem filter_explicit_pruned (once : Text → Bool) (source : Text) (message : Message)
    (key : Text) :
    (message.pruned once source).explicit.filter
        (compactSource · = key) =
      if once key then (message.explicit.filter (compactSource · = key)).take 1
      else message.explicit.filter (compactSource · = key) := by
  have hkey : ∀ clauses : List (Interval × Text),
      clauses.filter (compactSource · = key) =
        clauses.filter fun clause => some (compactSource clause) = some key := by
    simp only [Option.some.injEq, implies_true]
  rw [explicit_pruned, hkey, hkey]
  cases honce : once key with
  | false => exact filter_dropRepeats_of_not_once honce [] message.explicit
  | true => exact filter_dropRepeats_of_not_mem honce List.not_mem_nil message.explicit

/-- The warnings about an interval are as many as the sources that come to it, but for the first. -/
theorem countP_duplicateWarnings (key : Text) (seen sources : List Text) :
    (duplicateWarnings seen sources).countP (·.context = some key) =
      sources.countP (squeeze · = key) - if key ∈ seen then 0 else 1 := by
  induction sources generalizing seen with
  | nil => exact (Nat.zero_sub _).symm
  | cons source rest ih =>
    by_cases hsource : squeeze source ∈ seen
    · rw [duplicateWarnings_cons_seen hsource, List.countP_cons, List.countP_cons, ih]
      by_cases hkey : squeeze source = key
      · subst hkey
        simp [hsource, repeatWarning, warningOf]
      · simp [hkey, repeatWarning, warningOf]
    · rw [duplicateWarnings_cons_new hsource, List.countP_cons, ih]
      by_cases hkey : squeeze source = key
      · subst hkey
        simp [hsource]
      · simp [hkey, Ne.symm hkey]

/-- The clauses that a review reports are dead: an interval is reported once for each clause with it
but the first, these clauses hold the same numbers, and whichever of the repeats are deleted, the
message that is left selects what was selected before, for each count and in each language. -/
theorem repeats_are_dead {text : Text} {message : Message} (h : read text = .ok message) :
    (∀ language source, (duplicates text language).countP (·.context = some source) =
      message.explicit.countP (compactSource · = source) - 1) ∧
    (∀ clause ∈ message.explicit, ∀ other ∈ message.explicit,
      compactSource clause = compactSource other →
        ∀ number, clause.1.contains number = other.1.contains number) ∧
    ∀ once, ∃ kept, read (withoutRepeats once text) = .ok kept ∧
      kept.clauses.Sublist message.clauses ∧ kept.standard = message.standard ∧
      (∀ source, kept.explicit.filter (compactSource · = source) =
        if once source then (message.explicit.filter (compactSource · = source)).take 1
        else message.explicit.filter (compactSource · = source)) ∧
      ∀ count,
        (count.isSignaling = false → ∀ language,
          SelectAlike text (withoutRepeats once text) count language) ∧
        (count.isSignaling → ∀ language,
          selectFrom text count language = .error .incomparable ∧
            selectFrom (withoutRepeats once text) count language = .error .incomparable) := by
  refine ⟨?_, ?_, ?_⟩
  · intro language source
    rw [duplicates_eq, countP_duplicateWarnings, writtenIntervals_of_read h, List.countP_map]
    rfl
  · intro clause hclause other hother hsource number
    rw [Interval.contains, Interval.contains, shape_eq_of_compactSource_eq h hclause hother hsource]
  · intro once
    have hread := read_withoutRepeats once h
    refine ⟨_, hread, dropRepeats_sublist [] message.clauses, standard_pruned once _ message,
      filter_explicit_pruned once _ message, ?_⟩
    intro count
    constructor
    · intro hcount language
      obtain ⟨place, hplace⟩ := Number.exists_place hcount
      exact selectAlike_of_choose?_eq h hread hplace (choose?_pruned once _ h place language)
    · intro hcount language
      exact ⟨selectFrom_of_isSignaling h hcount language,
        selectFrom_of_isSignaling hread hcount language⟩

def fewThrice : Text := "[1, 5] few|[6,Inf] many|[1,5] some|[ 1,5 ] several"

/-- Two repeats are reported, and without them the choice is the same. -/
theorem repeats_are_dead_few :
    (∀ language, (duplicates fewThrice language).countP
      (·.context = some ("[1,5]" : Text)) = 2) ∧
    withoutRepeats (fun _ => true) fewThrice = "[1, 5] few|[6,Inf] many" ∧
    ∃ choice, choice.text = ("few" : Text) ∧
      selectFrom fewThrice (.integer 3) "en_US" = .ok choice ∧
      selectFrom (withoutRepeats (fun _ => true) fewThrice) (.integer 3) "en_US" = .ok choice := by
  obtain ⟨message, hread⟩ : ∃ message, read fewThrice = .ok message := ⟨_, rfl⟩
  obtain ⟨hcount, -, hdead⟩ := repeats_are_dead hread
  obtain ⟨kept, -, -, -, -, hselect⟩ := hdead fun _ => true
  have hfew : (selectFrom fewThrice (.integer 3) "en_US").map Choice.text = .ok "few" := by
    decide +kernel
  refine ⟨fun language => ?_, by decide +kernel, ?_⟩
  · rw [hcount language "[1,5]"]
    cases hread
    decide +kernel
  · cases (hselect (.integer 3)).1 rfl "en_US" with
    | choice choice hchoice hother =>
      rw [hchoice] at hfew
      exact ⟨choice, Except.ok.inj hfew, hchoice, hother⟩
    | noForm _ hnone =>
      obtain ⟨diagnostic, hnone⟩ := hnone
      rw [hnone] at hfew
      cases hfew
    | tooManyDigits _ hnone =>
      rw [hnone] at hfew
      cases hfew

/-- A signaling NaN is refused with and without the repeats, and not for want of a form. -/
theorem repeats_signaling :
    (∃ message, read fewThrice = .ok message) ∧
      withoutRepeats (fun _ => true) fewThrice = "[1, 5] few|[6,Inf] many" ∧
      selectFrom fewThrice (.decimal (.nan false true 0)) "en_US" = .error .incomparable ∧
      selectFrom "[1, 5] few|[6,Inf] many" (.decimal (.nan false true 0)) "en_US" =
        .error .incomparable :=
  ⟨⟨_, rfl⟩, by decide +kernel, rfl, rfl⟩

end Message
end Phrasebook
