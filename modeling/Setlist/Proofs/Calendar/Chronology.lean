import Setlist.Proofs.Calendar.Reading
import Setlist.Proofs.Text.Octets

/-! # Written times in chronological order

The catalogue compares written times by their bytes. While the years have four digits, that is the
order of the instants themselves, as far as they are written.
-/

namespace Setlist

theorem Instant.compare_eq_eq {a b : Instant} : a.compare b = .eq ↔ a = b := by
  rw [compare, Ordering.then_eq_eq, Std.compare_eq_iff_eq, Std.compare_eq_iff_eq]
  constructor
  · rintro ⟨hseconds, hnanos⟩
    cases a
    cases b
    simp_all
  · rintro rfl
    exact ⟨rfl, rfl⟩

namespace Timestamp

open Text

/-- Two times in years of four digits, leap seconds among them, have one text just when they are
the same without their fractions, and the bytes of one text come before those of the other just
when its time, without the fraction, is the earlier. Times that were read are proper, and so is
every whole second. -/
theorem octets_format_chronological {a b : Instant} (ha : a.Proper) (hb : b.Proper)
    (hya : a.date.HasPlainYear) (hyb : b.date.HasPlainYear) :
    (format a = format b ↔ a.truncated = b.truncated) ∧
      (octets (format a) < octets (format b) ↔ a.truncated.compare b.truncated = .lt) := by
  have hcompare := compare_format ha hb hya hyb
  constructor
  · rw [← Instant.compare_eq_eq, ← hcompare, Std.compare_eq_iff_eq]
  · rw [octets_lt_iff, hcompare]

/-- A leap second in its last nanosecond and the new year after it. -/
theorem octets_format_chronological_newYear :
    (Instant.mk 1483228799 1999999999).Proper ∧ (Instant.mk 1483228800 0).Proper ∧
    (Instant.mk 1483228799 1999999999).date.HasPlainYear ∧
    (Instant.mk 1483228800 0).date.HasPlainYear ∧
    format ⟨1483228799, 1999999999⟩ ≠ format ⟨1483228800, 0⟩ ∧
    octets (format ⟨1483228799, 1999999999⟩) < octets (format ⟨1483228800, 0⟩) := by
  have hleap : (Instant.mk 1483228799 1999999999).Proper := ⟨by decide, fun _ => rfl⟩
  have hnext := Instant.proper_of_whole 1483228800
  have hold : (Instant.mk 1483228799 1999999999).date.HasPlainYear := by decide +kernel
  have hnew : (Instant.mk 1483228800 0).date.HasPlainYear := by decide +kernel
  obtain ⟨hsame, hbefore⟩ := octets_format_chronological hleap hnext hold hnew
  exact ⟨hleap, hnext, hold, hnew, hsame.not.mpr (by decide), hbefore.mpr (by decide)⟩

end Timestamp

end Setlist
