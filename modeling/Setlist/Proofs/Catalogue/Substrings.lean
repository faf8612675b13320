import Setlist.Proofs.Catalogue.Rules
import Setlist.Proofs.Text.Matching

/-! # Substring rules

A rule on a substring finds a song when the folded literal stands in the folded text of the
field. A literal that is cut out of the text may fold differently on its own, where a capital
sigma ends the one and not the other, and then it may not be found.
-/

namespace Setlist

open Text LikePattern

/-- The text of a field as it is displayed. -/
def Row.display? (row : Row) : Field → Option String
  | .title => some row.song.title
  | .albumName => row.album.map (·.name)
  | .artistName => row.artist.map (·.name)
  | _ => none

section Compiling

variable {field : Field} {operator : Operator} {kind : MatchKind} {literal : String}
variable {record : RuleRecord} {raw : Json}

def Operator.textValue (operator : Operator) (literal : String) : Value :=
  match operator.matchKind with
  | some kind => .pattern (.ofLiteral kind literal)
  | none => .text literal

def textPredicate (field : Field) (operator : Operator) (literal : String) : Predicate :=
  ⟨field, operator, [operator.textValue literal], .ofOption field.relation⟩

theorem RuleRecord.Asks.compile_text (h : record.Asks field operator [raw])
    (hfield : field.type = .text) (hoperator : .text ∈ operator.types)
    (hraw : Value.readText raw = .ok literal) :
    record.compile = .ok (textPredicate field operator literal) := by
  refine h.compile_eq ?_ ?_ ?_ (.cons ?_ .nil)
  · rw [Operator.accepts, hfield, List.contains_iff_mem.mpr hoperator]
    cases operator <;> first | rfl | simp [Operator.types] at hoperator
  · cases operator <;> first | rfl | simp [Operator.types] at hoperator
  · rintro rfl
    simp [Operator.types] at hoperator
  · cases operator <;> first
      | simp [Operator.types] at hoperator; done
      | simp [Rule.compileValue, Operator.operand, Operator.matchKind, Operator.textValue,
          Value.read, hfield, hraw, Except.map]

def literalPredicate (field : Field) (operator : Operator) (kind : MatchKind) (literal : String) :
    Predicate :=
  ⟨field, operator, [.pattern (.ofLiteral kind literal)], .ofOption field.relation⟩

theorem RuleRecord.Asks.compile_literal (h : record.Asks field operator [raw])
    (hraw : Value.readText raw = .ok literal) (hfield : field.type = .text)
    (hkind : operator.matchKind = some kind) :
    record.compile = .ok (literalPredicate field operator kind literal) := by
  have hoperator : .text ∈ operator.types := by
    cases operator <;> first | exact List.mem_singleton_self _ | cases hkind
  rw [h.compile_text hfield hoperator hraw, textPredicate, Operator.textValue, hkind]
  rfl

end Compiling

def IsShort (kind : MatchKind) (literal : String) : Prop :=
  Condition.isOverlong (.text (fold (ofLiteral kind literal).text)) = false

instance (kind : MatchKind) (literal : String) : Decidable (IsShort kind literal) :=
  inferInstanceAs (Decidable (_ = false))

section Literals

variable {field : Field} {operator : Operator} {kind : MatchKind} {literal : String} {now : Instant}

theorem condition_literal (hkind : operator.matchKind = some kind) :
    (literalPredicate field operator kind literal).condition now =
      if operator.isNegated then
        .absentOr field (.notLike field (.text (fold (ofLiteral kind literal).text)))
      else .like field (.text (fold (ofLiteral kind literal).text)) := by
  cases operator <;> first | rfl | cases hkind

/-- On a text, the condition asks whether the literal is found in it. -/
theorem truth_literal (hkind : operator.matchKind = some kind) {read : Field → Cell}
    {text : String} (hread : read field = some (.text (fold text))) :
    ((literalPredicate field operator kind literal).condition now).truth read = some true ↔
      (operator.isNegated = false ↔ kind.Finds literal text) := by
  rw [condition_literal hkind, ← admits_fold_iff]
  cases operator.isNegated with
  | true => simp [Condition.truth, hread, Condition.fits, Truth.not, Truth.or_eq_true]
  | false => simp [Condition.truth, hread, Condition.fits]

theorem patternsFit_literal (hshort : IsShort kind literal) :
    (literalPredicate field operator kind literal).PatternsFit := by
  rintro - value hvalue
  rwa [List.mem_singleton.mp hvalue]

end Literals

namespace Catalogue

variable {c : Catalogue}

theorem cell_of_display (hc : c.Invariant) {user : Int} {song : SongRow} (hsong : song ∈ c.songs)
    {field : Field} {text : String} (h : (c.view user song).display? field = some text) :
    field.type = .text ∧ (c.view user song).cell field = some (.text (fold text)) := by
  cases field with
  | title =>
    obtain rfl := Option.some.inj h
    exact ⟨rfl, congrArg (some ∘ Datum.text) (hc.folded.songs song hsong)⟩
  | albumName =>
    obtain ⟨album, halbum, rfl⟩ := Option.map_eq_some_iff.mp h
    have hfolded := hc.folded.albums album (List.mem_of_find?_eq_some halbum)
    exact ⟨rfl, by rw [Row.cell, halbum, Option.map_some, hfolded]⟩
  | artistName =>
    obtain ⟨artist, hartist, rfl⟩ := Option.map_eq_some_iff.mp h
    have hfolded := hc.folded.artists artist (List.mem_of_find?_eq_some hartist)
    exact ⟨rfl, by rw [Row.cell, hartist, Option.map_some, hfolded]⟩
  | _ => cases h

section Fields

variable {user : Int} {song : SongRow} {field : Field} {operator : Operator} {kind : MatchKind}
variable {text literal : String}

theorem answers_literal (hc : c.Invariant) (hsong : song ∈ c.songs)
    (htext : (c.view user song).display? field = some text) {record : RuleRecord} {raw : Json}
    (hrecord : record.Asks field operator [raw]) (hraw : Value.readText raw = .ok literal)
    (hkind : operator.matchKind = some kind) (hshort : IsShort kind literal) (now : Instant) :
    c.Answers user now record song.id (operator.isNegated = false ↔ kind.Finds literal text) := by
  obtain ⟨hfield, hcell⟩ := cell_of_display hc hsong htext
  have hcompile := hrecord.compile_literal hraw hfield hkind
  exact (answers_of_compile hc hsong hcompile (patternsFit_literal hshort) now).congr
    (truth_literal hkind hcell)

theorem refuses_literal (hc : c.Invariant) (hsong : song ∈ c.songs)
    (htext : (c.view user song).display? field = some text) {record : RuleRecord} {raw : Json}
    (hrecord : record.Asks field operator [raw]) (hraw : Value.readText raw = .ok literal)
    (hkind : operator.matchKind = some kind) (hlong : ¬IsShort kind literal) (now : Instant) :
    c.Refuses user now record := by
  obtain ⟨hfield, hcell⟩ := cell_of_display hc hsong htext
  refine refuses_of_compile hc hsong (hrecord.compile_literal hraw hfield hkind) ?_ rfl
    (Bool.eq_true_of_not_eq_false hlong) ?_ now
  · rw [literalPredicate, hkind]
    rfl
  · rw [literalPredicate, hcell]
    rfl

theorem answers_of_short (hc : c.Invariant) (hsong : song ∈ c.songs)
    (htext : (c.view user song).display? field = some text)
    (hkind : operator.matchKind = some kind) (hshort : IsShort kind literal) (now : Instant) :
    c.Answers user now (literalRule field operator literal) song.id
      (operator.isNegated = false ↔ kind.Finds literal text) :=
  answers_literal hc hsong htext (asks_literalRule field operator literal) rfl hkind hshort now

theorem refuses_of_long (hc : c.Invariant) (hsong : song ∈ c.songs)
    (htext : (c.view user song).display? field = some text)
    (hkind : operator.matchKind = some kind) (hlong : ¬IsShort kind literal) (now : Instant) :
    c.Refuses user now (literalRule field operator literal) :=
  refuses_literal hc hsong htext (asks_literalRule field operator literal) rfl hkind hlong now

/-- A text is cut in three. A rule on its middle piece answers by where the folded piece stands
in the folded text, unless its pattern is too long. The piece stands there when its capital
sigmas are settled, and at either end of the text only then; but what stands after a NUL is
not seen. -/
theorem substring_rules (hc : c.Reachable) (hsong : song ∈ c.songs)
    {front literal back : String}
    (htext : (c.view user song).display? field = some (front ++ literal ++ back))
    (now : Instant) :
    (∀ operator kind, operator.matchKind = some kind →
      (IsShort kind literal → c.Answers user now (literalRule field operator literal) song.id
        (operator.isNegated = false ↔ kind.Finds literal (front ++ literal ++ back))) ∧
      (¬IsShort kind literal → c.Refuses user now (literalRule field operator literal))) ∧
    (IsWhole front.toList → SettledIn front literal back →
      MatchKind.contains.Finds literal (front ++ literal ++ back)) ∧
    (front = "" → (MatchKind.beginning.Finds literal (front ++ literal ++ back) ↔
      SettledIn front literal back)) ∧
    (back = "" → IsWhole front.toList →
      (MatchKind.ending.Finds literal (front ++ literal ++ back) ↔
        SettledIn front literal back)) := by
  refine ⟨fun operator kind hkind => ⟨fun hshort => ?_, fun hlong => ?_⟩,
    fun hfront hsettled => finds_of_settled hfront hsettled, ?_, ?_⟩
  · exact answers_of_short hc.invariant hsong htext hkind hshort now
  · exact refuses_of_long hc.invariant hsong htext hkind hlong now
  · rintro rfl
    rw [String.empty_append]
    exact finds_beginning_iff
  · rintro rfl hfront
    rw [String.append_empty]
    exact finds_ending_iff hfront

end Fields

theorem exists_titled (title : String)
    (h : (ofSong title "B" "C").songs.map (·.title) = [title]) :
    ∃ song ∈ (ofSong title "B" "C").songs,
      ((ofSong title "B" "C").view 1 song).display? .title = some title := by
  have hmem : title ∈ (ofSong title "B" "C").songs.map (·.title) := by
    rw [h]
    exact List.mem_singleton_self title
  obtain ⟨song, hsong, htitle⟩ := List.mem_map.mp hmem
  exact ⟨song, hsong, congrArg some htitle⟩

/-- The piece `ΟΣ` ends with a word both in `ΟΔΟΣ` and alone. -/
theorem substring_rules_odos : ∃ song ∈ (ofSong "ΟΔΟΣ" "B" "C").songs,
    (ofSong "ΟΔΟΣ" "B" "C").Answers 1 ⟨0, 0⟩ (literalRule .title .endsWith "ΟΣ") song.id
      (Operator.endsWith.isNegated = false ↔ MatchKind.ending.Finds "ΟΣ" ("ΟΔ" ++ "ΟΣ" ++ "")) ∧
    SettledIn "ΟΔ" "ΟΣ" "" := by
  obtain ⟨song, hsong, htitle⟩ := exists_titled "ΟΔΟΣ" (by decide +kernel)
  have htext : ((ofSong "ΟΔΟΣ" "B" "C").view 1 song).display? .title =
      some ("ΟΔ" ++ "ΟΣ" ++ "") := htitle
  obtain ⟨hrules, -, -, hends⟩ := substring_rules (reachable_ofSong _ _ _) hsong htext ⟨0, 0⟩
  have hwhole : IsWhole "ΟΔ".toList := by decide +kernel
  exact ⟨song, hsong, (hrules .endsWith .ending rfl).1 (by decide +kernel),
    (hends rfl hwhole).mp (by decide +kernel)⟩

/-- The piece `ΑΣ` of `ΑΣΑ` ends with a word only when it is alone, so it is not found. -/
theorem substring_of_sigma_missed : ∃ song ∈ (ofSong "ΑΣΑ" "B" "C").songs,
    ((ofSong "ΑΣΑ" "B" "C").view 1 song).display? .title = some ("" ++ "ΑΣ" ++ "Α") ∧
      (ofSong "ΑΣΑ" "B" "C").Answers 1 ⟨0, 0⟩ (literalRule .title .contains "ΑΣ") song.id False ∧
      (ofSong "ΑΣΑ" "B" "C").Answers 1 ⟨0, 0⟩ (literalRule .title .notContain "ΑΣ") song.id True ∧
      (ofSong "ΑΣΑ" "B" "C").Answers 1 ⟨0, 0⟩ (literalRule .title .beginsWith "ΑΣ") song.id
        False := by
  obtain ⟨song, hsong, htitle⟩ := exists_titled "ΑΣΑ" (by decide +kernel)
  have hc := (reachable_ofSong "ΑΣΑ" "B" "C").invariant
  have hshort : ∀ kind, IsShort kind "ΑΣ" := by
    intro kind
    cases kind <;> decide +kernel
  have hanswers {operator : Operator} {kind : MatchKind}
      (hkind : operator.matchKind = some kind) :=
    answers_of_short hc hsong htitle hkind (hshort kind) ⟨0, 0⟩
  have hmissed : ∀ kind, kind ≠ .ending → ¬MatchKind.Finds kind "ΑΣ" "ΑΣΑ" := by
    intro kind
    cases kind <;> decide +kernel
  have hcontains := hmissed .contains (by decide)
  have hbegins := hmissed .beginning (by decide)
  refine ⟨song, hsong, htitle, ?_, ?_, ?_⟩
  · exact (hanswers rfl).congr (iff_false_intro fun h => hcontains (h.mp rfl))
  · exact (hanswers rfl).congr (iff_true_intro ⟨nofun, fun h => absurd h hcontains⟩)
  · exact (hanswers rfl).congr (iff_false_intro fun h => hbegins (h.mp rfl))

end Catalogue

end Setlist
