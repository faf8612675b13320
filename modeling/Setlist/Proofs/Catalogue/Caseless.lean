import Setlist.Proofs.Catalogue.Literals
import Setlist.Proofs.Catalogue.Leniency
import Setlist.Proofs.Text.Refolding

/-! # The case of a literal

A text rule folds its literal, wildcards and all, before anything is asked of the database. So
literals with one folded form make one rule, alone and among any others: the queries are the same,
and so is all that comes of them.
-/

namespace Setlist

open Text LikePattern

theorem Except.map_mapM_congr {ε α β γ : Type} {f : α → Except ε β} {g : β → γ} {xs ys : List α}
    (h : List.Forall₂ (fun x y => (f x).map g = (f y).map g) xs ys) :
    (xs.mapM f).map (List.map g) = (ys.mapM f).map (List.map g) := by
  induction h with
  | nil => rfl
  | @cons x y xs ys hfirst hrest ih =>
    rw [List.mapM_cons, List.mapM_cons]
    cases hx : f x <;> cases hy : f y <;> rw [hx, hy] at hfirst
    case error.error => exact congrArg Except.error (Except.error.inj hfirst)
    case error.ok => cases hfirst
    case ok.error => cases hfirst
    case ok.ok b b' =>
      have hhead : g b = g b' := Except.ok.inj hfirst
      cases hxs : xs.mapM f <;> cases hys : ys.mapM f <;> rw [hxs, hys] at ih
      case error.error => exact congrArg Except.error (Except.error.inj ih)
      case error.ok => cases ih
      case ok.error => cases ih
      case ok.ok bs bs' =>
        have htail : bs.map g = bs'.map g := Except.ok.inj ih
        exact congrArg Except.ok (by rw [List.map_cons, List.map_cons, hhead, htail])

theorem exists_getElem?_of_forall₂ {α β : Type} {R : α → β → Prop} {xs : List α} {ys : List β}
    (h : List.Forall₂ R xs ys) {place : Nat} {x : α} (hx : xs[place]? = some x) :
    ∃ y, ys[place]? = some y ∧ R x y := by
  induction h generalizing place with
  | nil => cases hx
  | cons hfirst _ ih =>
    cases place with
    | zero =>
      obtain rfl := Option.some.inj hx
      exact ⟨_, rfl, hfirst⟩
    | succ place => exact ih hx

section Literals

variable {field : Field} {operator : Operator} {literal other : String}

theorem datum_textValue (h : fold literal = fold other) :
    (operator.textValue literal).datum = (operator.textValue other).datum := by
  unfold Operator.textValue
  split
  case h_1 kind _ =>
    have hpattern : fold (ofLiteral kind literal).text = fold (ofLiteral kind other).text := by
      rw [fold_ofLiteral, fold_ofLiteral, h]
    exact congrArg Datum.text hpattern
  case h_2 => exact congrArg Datum.text h

theorem condition_textPredicate (hfield : field.type = .text) (hoperator : .text ∈ operator.types)
    (h : fold literal = fold other) (now : Instant) :
    (textPredicate field operator literal).condition now =
      (textPredicate field operator other).condition now := by
  have hdatum : (operator.textValue literal).datum = (operator.textValue other).datum :=
    datum_textValue h
  cases operator <;> first
    | simp [Operator.types] at hoperator; done
    | simp [textPredicate, Predicate.condition, Predicate.comparison, Predicate.equality,
        Operator.arity, Operator.isNegated, hfield, hdatum]

end Literals

def Predicate.demand (p : Predicate) : Joins × (Instant → Condition) := (p.joins, p.condition)

/-- The other rule is the same, or asks the same of a text in other letters. -/
inductive RuleRecord.Recased : RuleRecord → RuleRecord → Prop
  | same (record : RuleRecord) : Recased record record
  | literal {record other : RuleRecord} {field : Field} {operator : Operator} {raw raw' : Json}
      {literal literal' : String} (type : field.type = .text) (takes : .text ∈ operator.types)
      (asks : record.Asks field operator [raw]) (reads : Value.readText raw = .ok literal)
      (asks' : other.Asks field operator [raw']) (reads' : Value.readText raw' = .ok literal')
      (folds : fold literal = fold literal') : Recased record other

def GroupRecord.Recased (group other : GroupRecord) : Prop :=
  List.Forall₂ RuleRecord.Recased group.rules other.rules

namespace RuleRecord.Recased

variable {record other : RuleRecord}

theorem symm (h : record.Recased other) : other.Recased record := by
  cases h with
  | same => exact .same record
  | literal htype htakes hasks hreads hasks' hreads' hfolds =>
    exact .literal htype htakes hasks' hreads' hasks hreads hfolds.symm

theorem compile_cases (h : record.Recased other) : record = other ∨
    ∃ p q, record.compile = .ok p ∧ other.compile = .ok q ∧ p.demand = q.demand := by
  cases h with
  | same => exact .inl rfl
  | literal htype htakes hasks hreads hasks' hreads' hfolds =>
    refine .inr ⟨_, _, hasks.compile_text htype htakes hreads,
      hasks'.compile_text htype htakes hreads', congrArg (Prod.mk _) (funext fun now => ?_)⟩
    exact condition_textPredicate htype htakes hfolds now

theorem map_compile (h : record.Recased other) :
    record.compile.map Predicate.demand = other.compile.map Predicate.demand := by
  rcases h.compile_cases with rfl | ⟨p, q, hp, hq, hsame⟩
  · rfl
  · rw [hp, hq]
    exact congrArg Except.ok hsame

end RuleRecord.Recased

namespace GroupRecord

variable {groups others : List GroupRecord}

theorem Recased.map_predicates {group other : GroupRecord} (h : group.Recased other) :
    group.predicates.map Predicate.demand = other.predicates.map Predicate.demand := by
  have hsame := Except.map_mapM_congr (h.imp fun _ _ hrecord => hrecord.map_compile)
  unfold predicates
  cases hps : group.rules.mapM RuleRecord.compile <;>
    cases hqs : other.rules.mapM RuleRecord.compile <;> rw [hps, hqs] at hsame
  case ok.ok => exact Except.ok.inj hsame
  all_goals first | rfl | cases hsame

theorem Recased.symm {group other : GroupRecord} (h : group.Recased other) :
    other.Recased group :=
  h.flip.imp fun _ _ => RuleRecord.Recased.symm

/-- A rule at fault has no literal that is read, so it stands on both sides. -/
theorem isOf_of_recased {fault : RuleFault} (h : List.Forall₂ Recased groups others)
    (hfault : fault.IsOf groups) : fault.IsOf others := by
  obtain ⟨group, record, hgroup, hrecord, hid, hcause⟩ := hfault
  obtain ⟨group', hgroup', hrules⟩ := exists_getElem?_of_forall₂ h hgroup
  obtain ⟨record', hrecord', hrecased⟩ := exists_getElem?_of_forall₂ hrules hrecord
  rcases hrecased.compile_cases with rfl | ⟨p, q, hp, -, -⟩
  · exact ⟨group', record, hgroup', hrecord', hid, hcause⟩
  · cases hp.symm.trans hcause

theorem allFaults_recased (h : List.Forall₂ Recased groups others) :
    allFaults groups = allFaults others := by
  have hflip : List.Forall₂ Recased others groups := h.flip.imp fun _ _ => Recased.symm
  refine (pairwise_allFaults groups).eq_of_mem_iff (pairwise_allFaults others) fun fault => ?_
  rw [mem_allFaults, mem_allFaults]
  exact ⟨isOf_of_recased h, isOf_of_recased hflip⟩

end GroupRecord

namespace Expression

/-- The two ask the same of the database for the same user. -/
structure Alike (e f : Expression) : Prop where
  user : e.user = f.user
  joins : e.joins = f.joins
  conditions : ∀ now : Instant,
    e.groups.map (·.map (·.condition now)) = f.groups.map (·.map (·.condition now))

namespace Alike

variable {e f : Expression} (h : e.Alike f)

include h

theorem ofExpression_eq (joins : Joins) (order : SortOrder) (now : Instant) :
    Selection.ofExpression e joins order now = .ofExpression f joins order now := by
  rw [Selection.ofExpression, Selection.ofExpression, h.user, h.conditions now]

theorem counting_eq (order : SortOrder) (now : Instant) :
    Catalogue.counting e order now = Catalogue.counting f order now := by
  rw [Catalogue.counting, Catalogue.counting, h.joins, h.ofExpression_eq]

theorem listing_eq (order : SortOrder) (now : Instant) :
    Catalogue.listing e order now = Catalogue.listing f order now := by
  rw [Catalogue.listing, Catalogue.listing, h.joins, h.ofExpression_eq]

theorem matchesNothing_eq : e.matchesNothing = f.matchesNothing := by
  have hempty : ∀ g : Expression, g.matchesNothing =
      (g.groups.map (·.map (·.condition ⟨0, 0⟩))).all (·.isEmpty) := by
    intro g
    rw [matchesNothing, List.all_map]
    exact congrArg _ (funext fun group => List.isEmpty_map.symm)
  rw [hempty, hempty, h.conditions]

theorem matched_eq (c : Catalogue) (now : Instant) : c.matched e now = c.matched f now := by
  rw [Catalogue.matched, Catalogue.matched, h.counting_eq]

theorem evaluate_eq (c : Catalogue) (plan : Plan) (order : SortOrder) (page : PageRequest)
    (now : Instant) : c.evaluate plan e order page now = c.evaluate plan f order page now := by
  rw [Catalogue.evaluate, Catalogue.evaluate, h.matchesNothing_eq, h.counting_eq, h.listing_eq,
    h.user]

end Alike

theorem alike_of_demand (user : Int) {groups others : List (List Predicate)}
    (h : groups.map (·.map Predicate.demand) = others.map (·.map Predicate.demand)) :
    (ofGroups user groups).Alike (ofGroups user others) := by
  have hread {α : Type} (read : Joins × (Instant → Condition) → α) :
      groups.map (·.map fun p => read p.demand) = others.map (·.map fun p => read p.demand) := by
    have := congrArg (List.map (List.map read)) h
    simpa only [List.map_map, Function.comp_def] using this
  constructor
  case user => rfl
  case joins =>
    refine congrArg Joins.unions ?_
    rw [List.map_flatten, List.map_flatten]
    exact congrArg _ (hread Prod.fst)
  case conditions => exact fun now => hread fun demand => demand.2 now

end Expression

namespace GroupRecord

theorem compile_recased (user : Int) {groups others : List GroupRecord}
    (h : List.Forall₂ Recased groups others) :
    (compile user groups).2 = (compile user others).2 ∧
      (compile user groups).1.Alike (compile user others).1 := by
  refine ⟨allFaults_recased h, Expression.alike_of_demand user ?_⟩
  rw [List.map_map, List.map_map, ← List.forall₂_eq_eq_eq, List.forall₂_map_left_iff,
    List.forall₂_map_right_iff]
  exact h.imp fun _ _ hgroup => hgroup.map_predicates

end GroupRecord

namespace Catalogue

open GroupRecord

/-- A text rule does not depend on the case of its literal, since folding a folded text changes
nothing. The rule and the one with the folded literal are both accepted, and all that is matched
and handed out is the same for the two. So it is among other rules and groups, where also the
faults are the same, as long as the literals fold alike. -/
theorem caseless_rules {field : Field} {operator : Operator} {record folded : RuleRecord}
    {raw other : Json} {literal : String} (hfield : field.type = .text)
    (hoperator : .text ∈ operator.types) (hrecord : record.Asks field operator [raw])
    (hraw : Value.readText raw = .ok literal) (hfolded : folded.Asks field operator [other])
    (hother : Value.readText other = .ok (fold literal)) (user : Int) :
    (∀ text, fold (fold text) = fold text) ∧
    (∃ e f, compileStrict user [⟨none, [record]⟩] = .ok e ∧
      compileStrict user [⟨none, [folded]⟩] = .ok f ∧
      ∀ (c : Catalogue) now, c.matched e now = c.matched f now ∧
        ∀ plan order page,
          c.evaluate plan e order page now = c.evaluate plan f order page now) ∧
    ∀ groups others, List.Forall₂ GroupRecord.Recased groups others →
      (compile user groups).2 = (compile user others).2 ∧
      ∀ (c : Catalogue) now,
        c.matched (compile user groups).1 now = c.matched (compile user others).1 now ∧
        ∀ plan order page, c.evaluate plan (compile user groups).1 order page now =
          c.evaluate plan (compile user others).1 order page now := by
  have hsame : ∀ {e f : Expression}, e.Alike f → ∀ (c : Catalogue) now,
      c.matched e now = c.matched f now ∧
        ∀ plan order page,
          c.evaluate plan e order page now = c.evaluate plan f order page now :=
    fun halike c now => ⟨halike.matched_eq c now,
      fun plan order page => halike.evaluate_eq c plan order page now⟩
  have hrecased : record.Recased folded :=
    .literal hfield hoperator hrecord hraw hfolded hother (fold_fold literal).symm
  refine ⟨fold_fold, ⟨_, _, compileStrict_single user (hrecord.compile_text hfield hoperator hraw),
    compileStrict_single user (hfolded.compile_text hfield hoperator hother), hsame ?_⟩,
    fun groups others h => ?_⟩
  · refine Expression.alike_of_demand user ?_
    have hdemand := hrecased.map_compile
    rw [hrecord.compile_text hfield hoperator hraw, hfolded.compile_text hfield hoperator hother]
      at hdemand
    exact congrArg (fun demand => [[demand]]) (Except.ok.inj hdemand)
  · obtain ⟨hfaults, halike⟩ := compile_recased user h
    exact ⟨hfaults, hsame halike⟩

/-- `ΑΣ` and `ας` find the song `ΜΑΣ` at the end of its title. -/
theorem caseless_rules_sigma : (ofSong "ΜΑΣ" "B" "C").Reachable ∧ fold "ΑΣ" = "ας" ∧
    ∃ e f, compileStrict 1 [⟨none, [literalRule .title .endsWith "ΑΣ"]⟩] = .ok e ∧
      compileStrict 1 [⟨none, [literalRule .title .endsWith "ας"]⟩] = .ok f ∧
      (ofSong "ΜΑΣ" "B" "C").matched e ⟨0, 0⟩ = ["song"] ∧
      (ofSong "ΜΑΣ" "B" "C").matched f ⟨0, 0⟩ = ["song"] := by
  have hfold : fold "ΑΣ" = "ας" := by decide +kernel
  have htype : Field.title.type = .text := rfl
  have htakes : ValueType.text ∈ Operator.endsWith.types := by decide
  obtain ⟨-, ⟨e, f, he, hf, hsame⟩, -⟩ := caseless_rules htype htakes
    (asks_literalRule .title .endsWith "ΑΣ") rfl (asks_literalRule .title .endsWith "ας")
    (congrArg Except.ok hfold.symm) 1
  have hmatched : (ofSong "ΜΑΣ" "B" "C").matched e ⟨0, 0⟩ = ["song"] := by
    obtain ⟨-, rfl⟩ := compileStrict_eq_ok.mp he
    decide +kernel
  exact ⟨reachable_ofSong _ _ _, hfold, e, f, he, hf, hmatched,
    (hsame (ofSong "ΜΑΣ" "B" "C") ⟨0, 0⟩).1.symm.trans hmatched⟩

end Catalogue

end Setlist
