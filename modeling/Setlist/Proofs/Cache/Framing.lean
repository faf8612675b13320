import Mathlib.Data.List.Forall2
import Setlist.Cache.Content

/-! # Framed bytes

A frame is a run of bytes that shows where it ends. Whatever follows it, the bytes tell what
is in the frame. Frames are built from numbers of a fixed width, texts and lists after their
lengths, and one frame after another.
-/

namespace Setlist

namespace Digest

theorem littleBytes_inj {width : Nat} : ∀ {m n : Nat}, m < 256 ^ width → n < 256 ^ width →
    (littleBytes width m = littleBytes width n ↔ m = n) := by
  induction width with
  | zero =>
    intro m n hm hn
    obtain rfl : m = 0 := by simpa using hm
    obtain rfl : n = 0 := by simpa using hn
    simp
  | succ width ih =>
    intro m n hm hn
    rw [Nat.pow_succ] at hm hn
    have hrest := ih (Nat.div_lt_of_lt_mul (Nat.mul_comm _ _ ▸ hm))
      (Nat.div_lt_of_lt_mul (Nat.mul_comm _ _ ▸ hn))
    constructor
    · intro h
      obtain ⟨hfirst, hmore⟩ := List.cons.inj h
      have hlow : m % 256 = n % 256 := by
        have := congrArg UInt8.toNat hfirst
        simpa using this
      have hhigh := hrest.mp hmore
      omega
    · rintro rfl
      rfl

@[simp] theorem length_littleBytes (width value : Nat) :
    (littleBytes width value).length = width := by
  induction width generalizing value with
  | zero => rfl
  | succ width ih => simp [littleBytes, ih]

end Digest

namespace Content

open Digest

/-- Of what `fits`, the bytes show where they end, and tell one from another up to `same`. -/
def Framed {α : Type} (bytes : α → List UInt8) (fits : α → Prop) (same : α → α → Prop) : Prop :=
  ∀ ⦃a b : α⦄, fits a → fits b → ∀ r s, bytes a ++ r = bytes b ++ s ↔ same a b ∧ r = s

/-- A number, a length or a count that eight bytes can hold. -/
def Counted (count : Nat) : Prop := count < 2 ^ 64

instance (count : Nat) : Decidable (Counted count) := inferInstanceAs (Decidable (count < 2 ^ 64))

variable {α β : Type} {bytes : α → List UInt8} {fits : α → Prop} {same : α → α → Prop}

theorem Framed.bytes_eq_iff (h : Framed bytes fits same) {a b : α} (ha : fits a) (hb : fits b) :
    bytes a = bytes b ↔ same a b := by
  simpa using h ha hb [] []

theorem Framed.comap (h : Framed bytes fits same) (view : β → α) :
    Framed (fun b => bytes (view b)) (fun b => fits (view b))
      (fun a b => same (view a) (view b)) :=
  fun _ _ ha hb r s => h ha hb r s

theorem Framed.append {more : α → List UInt8} {fitsMore : α → Prop} {sameMore : α → α → Prop}
    (h : Framed bytes fits same) (hmore : Framed more fitsMore sameMore) :
    Framed (fun a => bytes a ++ more a) (fun a => fits a ∧ fitsMore a)
      (fun a b => same a b ∧ sameMore a b) := by
  rintro a b ⟨ha, ha'⟩ ⟨hb, hb'⟩ r s
  rw [List.append_assoc, List.append_assoc, h ha hb, hmore ha' hb', and_assoc]

theorem framed_countBytes : Framed countBytes Counted (· = ·) := by
  intro m n hm hn r s
  have hlength : (countBytes m).length = (countBytes n).length := by simp [countBytes]
  constructor
  · intro h
    obtain ⟨hbytes, hrest⟩ := List.append_inj h hlength
    exact ⟨(littleBytes_inj hm hn).mp hbytes, hrest⟩
  · rintro ⟨rfl, rfl⟩
    rfl

theorem Framed.flatMap (h : Framed bytes fits same) :
    ∀ {xs ys : List α}, xs.length = ys.length → (∀ x ∈ xs, fits x) → (∀ y ∈ ys, fits y) →
      ∀ r s, xs.flatMap bytes ++ r = ys.flatMap bytes ++ s ↔ List.Forall₂ same xs ys ∧ r = s
  | [], [], _, _, _, r, s => by simp
  | x :: xs, y :: ys, hlength, hxs, hys, r, s => by
    have hrest := h.flatMap (Nat.succ.inj hlength) (fun a ha => hxs a (List.mem_cons_of_mem _ ha))
      (fun a ha => hys a (List.mem_cons_of_mem _ ha)) r s
    rw [List.flatMap_cons, List.flatMap_cons, List.append_assoc, List.append_assoc,
      h (hxs x List.mem_cons_self) (hys y List.mem_cons_self), hrest, List.forall₂_cons, and_assoc]

theorem Framed.list (h : Framed bytes fits same) :
    Framed (listBytes bytes) (fun xs => Counted xs.length ∧ ∀ x ∈ xs, fits x)
      (List.Forall₂ same) := by
  rintro xs ys ⟨hxs, hfits⟩ ⟨hys, hfits'⟩ r s
  rw [listBytes, listBytes, List.append_assoc, List.append_assoc, framed_countBytes hxs hys]
  constructor
  · rintro ⟨hlength, hrest⟩
    exact (h.flatMap hlength hfits hfits' r s).mp hrest
  · rintro ⟨hsame, hrest⟩
    exact ⟨hsame.length_eq, (h.flatMap hsame.length_eq hfits hfits' r s).mpr ⟨hsame, hrest⟩⟩

theorem toList_loop (data : ByteArray) (i : Nat) (done : List UInt8) :
    ByteArray.toList.loop data i done = done.reverse ++ data.data.toList.drop i := by
  fun_induction ByteArray.toList.loop data i done with
  | case1 i done hi ih =>
    have hlength : i < data.data.toList.length := by simpa using hi
    have hget : data.get! i = data.data.toList[i] := getElem!_pos data.data i (by simpa using hi)
    rw [ih, List.drop_eq_getElem_cons hlength, hget]
    simp
  | case2 i done hi =>
    have hlength : data.data.toList.length ≤ i := by simpa using hi
    rw [List.drop_eq_nil_of_le hlength, List.append_nil]

theorem toList_eq_data (data : ByteArray) : data.toList = data.data.toList := by
  simp [ByteArray.toList, toList_loop]

theorem length_utf8 (text : String) : text.toUTF8.toList.length = text.utf8ByteSize := by
  rw [toList_eq_data, Array.length_toList]
  rfl

theorem utf8_inj {a b : String} : a.toUTF8.toList = b.toUTF8.toList ↔ a = b := by
  rw [toList_eq_data, toList_eq_data, Array.toList_inj, ← ByteArray.ext_iff,
    String.toUTF8_eq_toByteArray, String.toUTF8_eq_toByteArray, String.toByteArray_inj]

theorem framed_textBytes : Framed textBytes (fun text => Counted text.utf8ByteSize) (· = ·) := by
  intro a b ha hb r s
  rw [textBytes, textBytes, List.append_assoc, List.append_assoc, length_utf8, length_utf8,
    framed_countBytes ha hb]
  constructor
  · rintro ⟨hsize, hrest⟩
    have hlength : a.toUTF8.toList.length = b.toUTF8.toList.length := by
      rw [length_utf8, length_utf8, hsize]
    obtain ⟨hbytes, hrest⟩ := List.append_inj hrest hlength
    exact ⟨utf8_inj.mp hbytes, hrest⟩
  · rintro ⟨rfl, rfl⟩
    exact ⟨rfl, rfl⟩

end Content

end Setlist
