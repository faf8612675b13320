import Setlist.Proofs.Catalogue.Substrings
import Setlist.Proofs.Text.Legible

/-! # Literal rules

A rule takes its text for a literal. Equality asks whether the folded texts are the same, and a
rule on a substring whether the folded literal stands in the folded text, as long as matching
sees both of them to their ends. A NUL ends a literal early, and its wildcard is lost with it.
-/

namespace Setlist

open Text LikePattern

def equalPredicate (field : Field) (literal : String) : Predicate :=
  ⟨field, .is, [.text literal], .ofOption field.relation⟩

theorem RuleRecord.Asks.compile_equal {record : RuleRecord} {field : Field} {raw : Json}
    {literal : String} (h : record.Asks field .is [raw]) (hraw : Value.readText raw = .ok literal)
    (hfield : field.type = .text) : record.compile = .ok (equalPredicate field literal) := by
  rw [h.compile_text hfield List.mem_cons_self hraw]
  rfl

theorem truth_equal {field : Field} (hfield : field.type = .text) {now : Instant}
    {read : Field → Cell} {literal text : String} (hread : read field = some (.text (fold text))) :
    ((equalPredicate field literal).condition now).truth read = some true ↔
      fold text = fold literal := by
  have hcondition : (equalPredicate field literal).condition now =
      .equal field (.text (fold literal)) := by
    simp [equalPredicate, Predicate.condition, Predicate.comparison, Predicate.equality,
      Operator.arity, Operator.isNegated, hfield, Value.datum]
  have hcompare : Datum.compare (.text (fold text)) (.text (fold literal)) =
      Ord.compare (fold text) (fold literal) := rfl
  simp [hcondition, Condition.truth, Condition.compares, hread, hcompare]

namespace Catalogue

variable {c : Catalogue} {user : Int} {song : SongRow} {field : Field} {text literal : String}
variable {raw : Json}

theorem answers_equal (hc : c.Invariant) (hsong : song ∈ c.songs)
    (htext : (c.view user song).display? field = some text) {record : RuleRecord}
    (hrecord : record.Asks field .is [raw]) (hraw : Value.readText raw = .ok literal)
    (now : Instant) : c.Answers user now record song.id (fold text = fold literal) := by
  obtain ⟨hfield, hcell⟩ := cell_of_display hc hsong htext
  exact (answers_of_compile hc hsong (hrecord.compile_equal hraw hfield) nofun now).congr
    (truth_equal hfield hcell)

/-- A rule takes its text for a literal: wildcards in it are folded and matched like any other
character. It finds the literal where it stands, once both are folded, if both are legible. -/
theorem literal_rules (hc : c.Reachable) (hsong : song ∈ c.songs)
    (htext : (c.view user song).display? field = some text)
    (hraw : Value.readText raw = .ok literal) (now : Instant) :
    (∀ kind, fold (ofLiteral kind literal).text = (ofLiteral kind (fold literal)).text) ∧
    (∀ record : RuleRecord, record.Asks field .is [raw] →
      c.Answers user now record song.id (fold text = fold literal)) ∧
    (∀ (record : RuleRecord) operator kind, record.Asks field operator [raw] →
      operator.matchKind = some kind →
        (IsShort kind literal → c.Answers user now record song.id
          (operator.isNegated = false ↔ kind.Finds literal text)) ∧
        (¬IsShort kind literal → c.Refuses user now record)) ∧
    ((∀ letter ∈ literal.toList, IsLegible letter) → (∀ letter ∈ text.toList, IsLegible letter) →
      ∀ kind : MatchKind,
        kind.Finds literal text ↔ kind.Stands (fold literal).toList (fold text).toList) := by
  refine ⟨fun kind => fold_ofLiteral kind literal, fun record hrecord => ?_,
    fun record operator kind hrecord hkind => ⟨fun hshort => ?_, fun hlong => ?_⟩,
    fun hliteral htext kind => finds_iff_stands hliteral htext kind⟩
  · exact answers_equal hc.invariant hsong htext hrecord hraw now
  · exact answers_literal hc.invariant hsong htext hrecord hraw hkind hshort now
  · exact refuses_literal hc.invariant hsong htext hrecord hraw hkind hlong now

/-- As a pattern `1%A` would match `100%_A`, but as a literal it does not stand there. -/
theorem literal_rules_wildcards : ∃ song ∈ (ofSong "100%_A" "B" "C").songs,
    (ofSong "100%_A" "B" "C").Answers 1 ⟨0, 0⟩ (literalRule .title .contains "0%_a") song.id True ∧
    (ofSong "100%_A" "B" "C").Answers 1 ⟨0, 0⟩ (literalRule .title .contains "1%A") song.id
      False := by
  obtain ⟨song, hsong, htitle⟩ := exists_titled "100%_A" (by decide +kernel)
  have hanswers {literal : String} (hshort : IsShort .contains literal)
      (hliteral : ∀ letter ∈ literal.toList, IsLegible letter)
      (htext : ∀ letter ∈ "100%_A".toList, IsLegible letter) :
      (ofSong "100%_A" "B" "C").Answers 1 ⟨0, 0⟩ (literalRule .title .contains literal) song.id
        (MatchKind.contains.Stands (fold literal).toList (fold "100%_A").toList) := by
    have hraw : Value.readText (.string literal) = .ok literal := rfl
    obtain ⟨-, -, hrules, hstands⟩ :=
      literal_rules (reachable_ofSong "100%_A" "B" "C") hsong htitle hraw ⟨0, 0⟩
    exact ((hrules _ .contains .contains (asks_literalRule .title .contains literal) rfl).1
      hshort).congr (Iff.trans (by simp [Operator.isNegated]) (hstands hliteral htext .contains))
  have htext : ∀ letter ∈ "100%_A".toList, IsLegible letter := by simp [IsLegible]
  refine ⟨song, hsong, (hanswers ?_ ?_ htext).congr (iff_true_intro ?_),
    (hanswers ?_ ?_ htext).congr (iff_false_intro ?_)⟩
  · decide +kernel
  · simp [IsLegible]
  · decide +kernel
  · decide +kernel
  · simp [IsLegible]
  · decide +kernel

/-- `A` does not contain `A` with a NUL and a `B` behind it, but the rule finds it there. -/
theorem literal_cut_at_nul : ∃ song ∈ (ofSong "A" "B" "C").songs,
    ((ofSong "A" "B" "C").view 1 song).display? .title = some "A" ∧
      (ofSong "A" "B" "C").Answers 1 ⟨0, 0⟩ (literalRule .title .contains "A\x00B") song.id True ∧
      ¬(fold "A\x00B").toList <:+: (fold "A").toList := by
  obtain ⟨song, hsong, htitle⟩ := exists_titled "A" (by decide +kernel)
  have hfound : MatchKind.contains.Finds "A\x00B" "A" := by decide +kernel
  have hkind : Operator.contains.matchKind = some .contains := rfl
  have hshort : IsShort .contains "A\x00B" := by decide +kernel
  have hanswers := answers_of_short (reachable_ofSong "A" "B" "C").invariant hsong htitle hkind
    hshort ⟨0, 0⟩
  exact ⟨song, hsong, htitle, hanswers.congr (iff_true_intro ⟨fun _ => hfound, fun _ => rfl⟩),
    by decide +kernel⟩

end Catalogue

end Setlist
