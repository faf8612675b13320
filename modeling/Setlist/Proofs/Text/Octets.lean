import Mathlib.Data.Char
import Mathlib.Data.List.Lex
import Setlist.Proofs.Cache.Framing
import Setlist.Proofs.Calendar.Order

/-! # The bytes of texts in order

Texts compare by their characters. Their bytes compare alike: of two characters the smaller
one has the smaller bytes at the first place where the bytes differ, whatever comes after.
-/

namespace Setlist

namespace Text

def octets (text : String) : List ℕ := text.toUTF8.toList.map UInt8.toNat

def charOctets (c : Char) : List ℕ := (String.utf8EncodeChar c).map UInt8.toNat

theorem octets_eq (text : String) : octets text = text.toList.flatMap charOctets := by
  have hbytes : text.toUTF8.toList = text.toList.flatMap String.utf8EncodeChar := by
    rw [Content.toList_eq_data, String.toUTF8_eq_toByteArray, ← String.utf8Encode_toList,
      List.utf8Encode, List.toList_data_toByteArray]
  rw [octets, hbytes, List.map_flatMap]
  rfl

theorem charOctets_eq (c : Char) : charOctets c =
    if c.toNat ≤ 127 then [c.toNat]
    else if c.toNat ≤ 2047 then [c.toNat / 64 % 32 + 192, c.toNat % 64 + 128]
    else if c.toNat ≤ 65535 then
      [c.toNat / 64 / 64 % 16 + 224, c.toNat / 64 % 64 + 128, c.toNat % 64 + 128]
    else [c.toNat / 64 / 64 / 64 % 8 + 240, c.toNat / 64 / 64 % 64 + 128, c.toNat / 64 % 64 + 128,
      c.toNat % 64 + 128] := by
  change (if c.toNat ≤ 127 then _ else if c.toNat ≤ 2047 then _ else if c.toNat ≤ 65535 then _
    else _ : List UInt8).map UInt8.toNat = _
  simp only [Nat.div_div_eq_div_mul]
  split_ifs
  all_goals
    simp only [List.map_cons, List.map_nil, UInt8.toNat_ofNat']
    congr 1 <;> simp <;> omega

theorem charOctets_append_lt {c d : Char} (h : c < d) (more others : List ℕ) :
    charOctets c ++ more < charOctets d ++ others := by
  have hlt : c.toNat < d.toNat := h
  have hbound : d.toNat < 2097152 := by
    rcases d.valid with hlow | ⟨-, hhigh⟩
    · exact Nat.lt_trans hlow (by decide)
    · exact Nat.lt_trans hhigh (by decide)
  rw [charOctets_eq, charOctets_eq]
  split_ifs <;> simp only [List.cons_append, List.nil_append, List.cons_lt_cons_iff] <;> omega

theorem charOctets_ne_nil (c : Char) : charOctets c ≠ [] := by
  simp [charOctets, String.utf8EncodeChar_ne_nil]

theorem flatMap_charOctets_lt {a b : List Char} (h : a < b) :
    a.flatMap charOctets < b.flatMap charOctets := by
  induction a generalizing b with
  | nil =>
    cases b with
    | nil => exact absurd h (lt_irrefl _)
    | cons d b =>
      obtain ⟨first, rest, hd⟩ := List.exists_cons_of_ne_nil (charOctets_ne_nil d)
      simp [hd]
  | cons c a ih =>
    cases b with
    | nil => simp at h
    | cons d b =>
      rw [List.flatMap_cons, List.flatMap_cons]
      rcases List.cons_lt_cons_iff.mp h with hchar | ⟨rfl, hrest⟩
      · exact charOctets_append_lt hchar _ _
      · exact List.append_left_lt (ih hrest)

theorem octets_lt_iff {a b : String} : octets a < octets b ↔ Ord.compare a b = .lt := by
  have hmono {a b : String} (h : Ord.compare a b = .lt) : octets a < octets b := by
    rw [← String.ofList_toList (s := a), ← String.ofList_toList (s := b), compare_ofList] at h
    rw [octets_eq, octets_eq]
    exact flatMap_charOctets_lt (compare_chars_eq_lt.mp h)
  constructor
  · intro h
    cases hab : Ord.compare a b with
    | lt => rfl
    | eq =>
      obtain rfl := Std.LawfulEqOrd.eq_of_compare hab
      exact absurd h (lt_irrefl _)
    | gt => exact absurd h (hmono (Std.OrientedCmp.lt_of_gt hab)).asymm
  · exact hmono

end Text

end Setlist
