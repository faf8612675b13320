import Setlist.Calendar.Timestamp

/-! # The layouts of times

Every layout of a timestamp fixes how many colons and letters for universal time a text in it
holds: three with an offset, two with a time of day alone, and none in a bare date. So no text is
in two layouts, and they may be tried in any order.
-/

namespace Setlist

namespace Timestamp

/-- A colon, or a letter that stands for universal time. -/
def isMark (c : Char) : Bool := c == ':' || c == 'Z' || c == 'z'

def marks (text : List Char) : Nat := text.countP isMark

theorem isMark_iff {c : Char} : isMark c ↔ c ∈ [':', 'Z', 'z'] := by
  simp [isMark, or_assoc]

theorem marks_of_class {isMember : Char → Bool} (hclass : [':', 'Z', 'z'].any isMember = false)
    {text : List Char} (h : ∀ c ∈ text, isMember c) : marks text = 0 := by
  refine List.countP_eq_zero.mpr fun c hc hmark => ?_
  exact List.any_eq_false.mp hclass c (isMark_iff.mp hmark) (h c hc)

theorem marks_cons {c : Char} (h : ¬isMark c) (text : List Char) : marks (c :: text) = marks text :=
  List.countP_cons_of_neg h

theorem marks_of_digits {text : List Char} (h : ∀ c ∈ text, c.isDigit) : marks text = 0 :=
  marks_of_class rfl h

theorem marks_of_blanks {text : List Char} (h : ∀ c ∈ text, Text.isBlank c) : marks text = 0 :=
  marks_of_class rfl h

end Timestamp

theorem findSome?_perm {α β : Type} {f : α → Option β} {order others : List α}
    (h : order.Perm others) (hone : others.countP (fun a => (f a).isSome) ≤ 1) :
    order.findSome? f = others.findSome? f := by
  have hperm := h.filterMap f
  rw [← List.length_filterMap_eq_countP] at hone
  rw [← List.head?_filterMap, ← List.head?_filterMap]
  cases hanswers : others.filterMap f with
  | nil =>
    rw [hanswers] at hperm
    rw [List.perm_nil.mp hperm]
  | cons answer more =>
    obtain rfl : more = [] := by
      rw [hanswers, List.length_cons] at hone
      exact List.length_eq_zero_iff.mp (by omega)
    rw [hanswers] at hperm
    rw [List.perm_singleton.mp hperm]

namespace Text.Reader

open Timestamp

variable {α β : Type}

/-- Whatever is read, `n` marks are among the characters taken for it. -/
def Takes (reader : Reader α) (n : Nat) : Prop := ∀ ⦃text value rest⦄,
  reader text = some (value, rest) → ∃ taken, text = taken ++ rest ∧ marks taken = n

theorem Takes.bind {reader : Reader α} {next : α → Reader β} {m n : Nat} (h : reader.Takes m)
    (hnext : ∀ a, (next a).Takes n) : Takes (reader >>= next) (n + m) := by
  intro text value rest hread
  obtain ⟨⟨a, after⟩, hfirst, hsecond⟩ := Option.bind_eq_some_iff.mp hread
  obtain ⟨front, rfl, hfront⟩ := h hfirst
  obtain ⟨back, rfl, hback⟩ := hnext a hsecond
  refine ⟨front ++ back, (List.append_assoc _ _ _).symm, ?_⟩
  rw [← hfront, ← hback, Nat.add_comm]
  exact List.countP_append

theorem Takes.whole {reader : Reader α} {n : Nat} (h : reader.Takes n) {text : List Char}
    (hwhole : (reader.whole text).isSome) : marks text = n := by
  unfold Reader.whole at hwhole
  split at hwhole
  case h_1 hread =>
    obtain ⟨taken, rfl, htaken⟩ := h hread
    rwa [List.append_nil]
  case h_2 => cases hwhole

theorem Takes.of_map {reader : Reader α} {n : Nat} (h : reader.Takes n)
    {f : α × List Char → β × List Char} {text rest : List Char} {value : β}
    (hread : (reader text).map f = some (value, rest)) (hf : ∀ read, (f read).2 = read.2) :
    ∃ taken, text = taken ++ rest ∧ marks taken = n := by
  obtain ⟨⟨a, after⟩, hfirst, hvalue⟩ := Option.map_eq_some_iff.mp hread
  obtain rfl : after = rest := (hf (a, after)).symm.trans (congrArg Prod.snd hvalue)
  exact h hfirst

theorem takes_pure (value : α) : Takes (pure value) 0 := by
  intro text value' rest hread
  cases hread
  exact ⟨[], rfl, rfl⟩

theorem takes_ensure (test : Bool) : (ensure test).Takes 0 := by
  intro text value rest hread
  obtain ⟨-, hread⟩ := Option.ite_none_right_eq_some.mp hread
  cases hread
  exact ⟨[], rfl, rfl⟩

theorem takes_blanks : blanks.Takes 0 := by
  intro text value rest hread
  cases hread
  exact ⟨text.takeWhile isBlank, List.takeWhile_append_dropWhile.symm,
    marks_of_blanks (List.all_eq_true.mp List.all_takeWhile)⟩

theorem satisfy_eq_some {test : Char → Bool} {text rest : List Char} {c : Char}
    (h : satisfy test text = some (c, rest)) : text = c :: rest ∧ test c := by
  cases text with
  | nil => cases h
  | cons d after =>
    obtain ⟨htest, h⟩ := Option.ite_none_right_eq_some.mp h
    cases h
    exact ⟨rfl, htest⟩

theorem takes_satisfy {test : Char → Bool} {n : Nat} (h : ∀ c, test c → marks [c] = n) :
    (satisfy test).Takes n := by
  intro text c rest hread
  obtain ⟨rfl, htest⟩ := satisfy_eq_some hread
  exact ⟨[c], rfl, h c htest⟩

theorem takes_satisfy_bind {test : Char → Bool} {next : Char → Reader α} {n : Nat}
    (hnext : ∀ c, test c → ∃ m, (next c).Takes m ∧ marks [c] + m = n) :
    Takes (satisfy test >>= next) n := by
  intro text value rest hread
  obtain ⟨⟨c, after⟩, hfirst, hsecond⟩ := Option.bind_eq_some_iff.mp hread
  obtain ⟨rfl, htest⟩ := satisfy_eq_some hfirst
  obtain ⟨m, htakes, rfl⟩ := hnext c htest
  obtain ⟨taken, rfl, rfl⟩ := htakes hsecond
  refine ⟨c :: taken, rfl, ?_⟩
  rw [← List.singleton_append]
  exact List.countP_append

theorem takes_literal {c : Char} {n : Nat} (h : marks [c] = n) : (literal c).Takes n := by
  have hsatisfy : (satisfy (· == c)).Takes n := takes_satisfy fun d hd => by
    rwa [eq_of_beq hd]
  exact Nat.zero_add n ▸ hsatisfy.bind fun _ => takes_pure ()

theorem takes_hyphen : (literal '-').Takes 0 := takes_literal rfl

theorem takes_colon : (literal ':').Takes 1 := takes_literal rfl

theorem taken_digits {run text : List Char} (hrun : run <+: text)
    (hdigits : ∀ c ∈ run, c.isDigit) :
    ∃ taken, text = taken ++ text.drop run.length ∧ marks taken = 0 :=
  ⟨run, (List.prefix_iff_eq_append.mp hrun).symm, marks_of_digits hdigits⟩

theorem takes_digits (most : Option Nat) : (digits most).Takes 0 := by
  intro text value rest hread
  obtain ⟨-, hread⟩ := Option.ite_none_left_eq_some.mp hread
  obtain ⟨-, rfl⟩ := Prod.mk.inj (Option.some.inj hread)
  have hspan : text.takeWhile Char.isDigit <+: text := List.takeWhile_prefix _
  have hdigits : ∀ c ∈ text.takeWhile Char.isDigit, c.isDigit :=
    List.all_eq_true.mp List.all_takeWhile
  cases most with
  | none => exact taken_digits hspan hdigits
  | some n =>
    exact taken_digits ((List.take_prefix n _).trans hspan) fun c hc =>
      hdigits c (List.mem_of_mem_take hc)

theorem takes_exactly (width : Nat) : (exactly width).Takes 0 := by
  intro text value rest hread
  obtain ⟨⟨hlength, hdigits⟩, hread⟩ := Option.ite_none_right_eq_some.mp hread
  obtain ⟨-, rfl⟩ := Prod.mk.inj (Option.some.inj hread)
  have htaken := taken_digits (List.take_prefix width text) (List.all_eq_true.mp hdigits)
  rwa [hlength] at htaken

end Text.Reader

namespace Timestamp

open Text Text.Reader

theorem takes_validDate (year : Int) (month day : Nat) : (validDate year month day).Takes 0 :=
  (takes_ensure _).bind fun _ => takes_pure _

theorem takes_validTime (d : Date) (hour minute second nanos : Nat) :
    (validTime d hour minute second nanos).Takes 0 :=
  (takes_ensure _).bind fun _ => takes_pure _

theorem takes_lenientPair : lenientPair.Takes 0 := takes_blanks.bind fun _ => takes_digits _

theorem takes_lenientYear : lenientYear.Takes 0 := by
  refine takes_blanks.bind fun _ => ?_
  intro text year rest hread
  dsimp only at hread
  split at hread
  case h_1 =>
    obtain ⟨taken, rfl, htaken⟩ := (takes_digits _).of_map hread fun _ => rfl
    exact ⟨'-' :: taken, rfl, htaken⟩
  case h_2 =>
    obtain ⟨taken, rfl, htaken⟩ := (takes_digits _).of_map hread fun _ => rfl
    exact ⟨'+' :: taken, rfl, htaken⟩
  case h_3 => exact (takes_digits _).of_map hread fun _ => rfl

theorem takes_lenientDate : lenientDate.Takes 0 :=
  takes_lenientYear.bind fun _ => takes_hyphen.bind fun _ => takes_lenientPair.bind fun _ =>
    takes_hyphen.bind fun _ => takes_lenientPair.bind fun _ => takes_validDate _ _ _

theorem takes_fraction : fraction.Takes 0 := by
  intro text nanos rest hread
  unfold fraction at hread
  split at hread
  case h_1 after =>
    obtain ⟨-, hread⟩ := Option.ite_none_left_eq_some.mp hread
    cases hread
    refine ⟨'.' :: after.takeWhile Char.isDigit,
      congrArg ('.' :: ·) List.takeWhile_append_dropWhile.symm, ?_⟩
    rw [marks_cons (by decide)]
    exact marks_of_digits (List.all_eq_true.mp List.all_takeWhile)
  case h_2 =>
    cases hread
    exact ⟨[], rfl, rfl⟩

/-- One mark is in an offset: the letter that stands for none, or the colon of the others. -/
theorem takes_offset : offset.Takes 1 := by
  refine takes_satisfy_bind fun sign hsign => ?_
  simp only [Bool.or_eq_true, beq_iff_eq] at hsign
  dsimp only
  split
  case isTrue hletter =>
    simp only [Bool.or_eq_true, beq_iff_eq] at hletter
    -- the letter is the mark, and nothing follows it
    refine ⟨0, takes_pure _, ?_⟩
    rcases hletter with rfl | rfl <;> rfl
  case isFalse hletter =>
    simp only [Bool.or_eq_true, beq_iff_eq] at hletter
    -- a sign is no mark, and the hours and minutes after it stand around a colon
    refine ⟨1, ?_, ?_⟩
    · exact (takes_exactly 2).bind fun _ => takes_colon.bind fun _ => (takes_exactly 2).bind
        fun _ => (takes_ensure _).bind fun _ => takes_pure _
    · have hplain : sign = '+' ∨ sign = '-' ∨ sign = '\u2212' := by grind
      rcases hplain with rfl | rfl | rfl <;> rfl

theorem takes_internetLayout : internetLayout.Takes 3 := by
  refine (takes_exactly 4).bind fun _ => takes_hyphen.bind fun _ => (takes_exactly 2).bind fun _ =>
    takes_hyphen.bind fun _ => (takes_exactly 2).bind fun _ => ?_
  have hseparator : ∀ c, (c == 'T' || c == 't' || c == ' ') = true → marks [c] = 0 := by
    intro c hc
    simp only [Bool.or_eq_true, beq_iff_eq] at hc
    obtain (rfl | rfl) | rfl := hc <;> rfl
  refine (takes_satisfy hseparator).bind fun _ => ?_
  refine (takes_exactly 2).bind fun _ => takes_colon.bind fun _ => (takes_exactly 2).bind fun _ =>
    takes_colon.bind fun _ => (takes_exactly 2).bind fun _ => ?_
  exact takes_fraction.bind fun _ => takes_offset.bind fun _ => (takes_validDate _ _ _).bind
    fun _ => (takes_validTime _ _ _ _ _).bind fun _ => takes_pure _

theorem takes_storageLayout : storageLayout.Takes 2 :=
  takes_lenientDate.bind fun _ => takes_lenientPair.bind fun _ => takes_colon.bind fun _ =>
    takes_lenientPair.bind fun _ => takes_colon.bind fun _ => takes_lenientPair.bind fun _ =>
    takes_validTime _ _ _ _ _

theorem takes_dateLayout : dateLayout.Takes 0 := takes_lenientDate.bind fun _ => takes_pure _

def layouts : List (Reader Instant) := [internetLayout, storageLayout, dateLayout]

def readIn (order : List (Reader Instant)) (text : String) : Option Instant :=
  order.findSome? fun layout => layout.whole (trimmed text.toList)

theorem read?_eq_readIn (text : String) : read? text = readIn layouts text := by
  simp only [read?, readChars, readIn, layouts, List.findSome?_cons, List.findSome?_nil]
  cases internetLayout.whole (trimmed text.toList) with
  | some => rfl
  | none =>
    cases storageLayout.whole (trimmed text.toList) with
    | some => rfl
    | none => cases dateLayout.whole (trimmed text.toList) <;> rfl

theorem countP_layouts_le_one (text : List Char) :
    layouts.countP (fun layout => (layout.whole text).isSome) ≤ 1 := by
  have hinternet : (internetLayout.whole text).isSome → marks text = 3 :=
    takes_internetLayout.whole
  have hstorage : (storageLayout.whole text).isSome → marks text = 2 := takes_storageLayout.whole
  have hdate : (dateLayout.whole text).isSome → marks text = 0 := takes_dateLayout.whole
  simp only [layouts, List.countP_cons, List.countP_nil]
  grind

/-- At most one layout takes a text, in whatever order the layouts are tried, and the text is
read alike in every order. -/
theorem layouts_exclusive {order : List (Reader Instant)} (h : order.Perm layouts) (text : String) :
    order.countP (fun layout => (layout.whole (trimmed text.toList)).isSome) ≤ 1 ∧
      readIn order text = read? text := by
  have hone := countP_layouts_le_one (trimmed text.toList)
  constructor
  · rw [h.countP_eq]
    exact hone
  · rw [read?_eq_readIn]
    exact findSome?_perm h hone

/-- With the bare date tried first, each layout still reads its own texts. -/
theorem layouts_exclusive_reversed : layouts.reverse.Perm layouts ∧
    readIn layouts.reverse "2024-02-29t23:59:60.5-00:30" = some ⟨1709252999, 1500000000⟩ ∧
    readIn layouts.reverse "+02024- 2-2923: 59:60" = some ⟨1709251199, 1000000000⟩ ∧
    readIn layouts.reverse "\t-2024- 2-29" = some ⟨-126033408000, 0⟩ := by
  have hperm := List.reverse_perm layouts
  refine ⟨hperm, ?_, ?_, ?_⟩
  · rw [(layouts_exclusive hperm _).2]
    decide +kernel
  · rw [(layouts_exclusive hperm _).2]
    decide +kernel
  · rw [(layouts_exclusive hperm _).2]
    decide +kernel

end Timestamp

end Setlist
