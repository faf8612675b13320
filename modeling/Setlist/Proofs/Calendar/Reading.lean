import Setlist.Calendar.Stored
import Setlist.Proofs.Calendar.Order

/-! # What is read as a time

Every layout of a timestamp yields an instant whose fraction runs past one only in the last
second of a minute, since offsets are whole minutes.
-/

namespace Setlist

namespace Text.Reader

variable {α β : Type}

def Yields (reader : Reader α) (P : α → Prop) : Prop :=
  ∀ ⦃text value rest⦄, reader text = some (value, rest) → P value

theorem Yields.bind {reader : Reader α} {next : α → Reader β} {P : α → Prop} {Q : β → Prop}
    (h : reader.Yields P) (hnext : ∀ a, P a → (next a).Yields Q) :
    Yields (reader >>= next) Q := by
  intro text value rest hread
  obtain ⟨⟨a, after⟩, hfirst, hsecond⟩ := Option.bind_eq_some_iff.mp hread
  exact hnext a (h hfirst) hsecond

theorem yields_bind {reader : Reader α} {next : α → Reader β} {Q : β → Prop}
    (hnext : ∀ a, (next a).Yields Q) : Yields (reader >>= next) Q :=
  Yields.bind (P := fun _ => True) (fun _ _ _ _ => trivial) fun a _ => hnext a

theorem yields_pure {value : α} {P : α → Prop} (h : P value) : Yields (pure value) P := by
  intro text value' rest hread
  cases hread
  exact h

theorem Yields.whole {reader : Reader α} {P : α → Prop} (h : reader.Yields P) {text : List Char}
    {value : α} (hwhole : reader.whole text = some value) : P value := by
  unfold Reader.whole at hwhole
  split at hwhole
  case h_1 hread =>
    obtain rfl := Option.some.inj hwhole
    exact h hread
  case h_2 => cases hwhole

end Text.Reader

namespace Instant

theorem proper_of_whole (seconds : Int) : Proper ⟨seconds, 0⟩ :=
  ⟨Nat.zero_lt_succ _, fun h => absurd h (Nat.not_succ_le_zero _)⟩

theorem proper_atMidnight (d : Date) : (atMidnight d).Proper := proper_of_whole _

theorem proper_ofClock (d : Date) (hour minute second : Nat) {nanos : Nat}
    (hnanos : nanos < nanosPerSecond) : (ofClock d hour minute second nanos).Proper := by
  unfold ofClock
  dsimp only
  split
  case isTrue hleap =>
    refine ⟨?_, fun _ => ?_⟩
    · unfold nanosPerSecond at *
      dsimp only
      omega
    · unfold atMidnight secondsPerDay
      dsimp only
      omega
  case isFalse hleap =>
    refine ⟨?_, fun h => absurd h (Nat.not_le.mpr hnanos)⟩
    unfold nanosPerSecond at *
    dsimp only
    omega

theorem Proper.shifted {i : Instant} (h : i.Proper) {seconds : Int} (hwhole : seconds % 60 = 0) :
    (i.shifted seconds).Proper := by
  refine ⟨h.nanos_lt, fun hleap => ?_⟩
  have hsecond := h.leap hleap
  unfold Instant.shifted
  dsimp only
  omega

end Instant

namespace Timestamp

open Text.Reader

theorem yields_fraction : fraction.Yields (· < Instant.nanosPerSecond) := by
  intro text value rest hread
  unfold fraction at hread
  split at hread
  case h_1 digits =>
    dsimp only at hread
    split at hread
    case isTrue => cases hread
    case isFalse =>
      obtain ⟨rfl, -⟩ := Prod.mk.inj (Option.some.inj hread)
      have hdigits : ∀ c ∈ (digits.takeWhile Char.isDigit).take 9, c.isDigit := fun c hc =>
        List.all_eq_true.mp List.all_takeWhile c (List.mem_of_mem_take hc)
      have hlength := List.length_take_le 9 (digits.takeWhile Char.isDigit)
      have hscale : 10 ^ ((digits.takeWhile Char.isDigit).take 9).length *
          10 ^ (9 - ((digits.takeWhile Char.isDigit).take 9).length) = Instant.nanosPerSecond := by
        rw [← Nat.pow_add, Nat.add_sub_cancel' hlength]
        rfl
      rw [← hscale]
      exact Nat.mul_lt_mul_of_pos_right (digitsValue_lt hdigits) (Nat.pow_pos (by decide))
  case h_2 =>
    obtain ⟨rfl, -⟩ := Prod.mk.inj (Option.some.inj hread)
    decide

theorem yields_offset : offset.Yields (· % 60 = 0) := by
  refine yields_bind fun c => ?_
  dsimp only
  split
  case isTrue => exact yields_pure rfl
  case isFalse =>
    refine yields_bind fun hour => yields_bind fun _ => yields_bind fun minute =>
      yields_bind fun _ => yields_pure ?_
    split <;> omega

theorem yields_validTime (d : Date) (hour minute second : Nat) {nanos : Nat}
    (h : nanos < Instant.nanosPerSecond) :
    (validTime d hour minute second nanos).Yields Instant.Proper :=
  yields_bind fun _ => yields_pure (Instant.proper_ofClock d hour minute second h)

theorem yields_internetLayout : internetLayout.Yields Instant.Proper := by
  -- The date, its separator and the clock come before the fraction.
  refine yields_bind fun _ => yields_bind fun _ => yields_bind fun _ => yields_bind fun _ =>
    yields_bind fun _ => yields_bind fun _ => yields_bind fun _ => yields_bind fun _ =>
    yields_bind fun _ => yields_bind fun _ => yields_bind fun _ => ?_
  refine yields_fraction.bind fun nanos hnanos => yields_offset.bind fun ahead hahead => ?_
  refine yields_bind fun d => (yields_validTime d _ _ _ hnanos).bind fun i hi => ?_
  exact yields_pure (hi.shifted (by omega))

theorem yields_storageLayout : storageLayout.Yields Instant.Proper :=
  yields_bind fun d => yields_bind fun hour => yields_bind fun _ => yields_bind fun minute =>
    yields_bind fun _ => yields_bind fun second =>
    yields_validTime d hour minute second (by decide)

theorem yields_dateLayout : dateLayout.Yields Instant.Proper :=
  yields_bind fun d => yields_pure (Instant.proper_atMidnight d)

/-- What each layout yields holds of every instant that is read. -/
theorem of_read? {P : Instant → Prop} (hinternet : internetLayout.Yields P)
    (hstorage : storageLayout.Yields P) (hdate : dateLayout.Yields P) {text : String} {i : Instant}
    (h : read? text = some i) : P i := by
  simp only [read?, readChars, Option.orElse_eq_orElse, Option.orElse_eq_or, Option.or_eq_some_iff]
    at h
  rcases h with hread | ⟨-, hread | ⟨-, hread⟩⟩
  · exact hinternet.whole hread
  · exact hstorage.whole hread
  · exact hdate.whole hread

theorem proper_of_read? {text : String} {i : Instant} (h : read? text = some i) : i.Proper :=
  of_read? yields_internetLayout yields_storageLayout yields_dateLayout h

end Timestamp

end Setlist
