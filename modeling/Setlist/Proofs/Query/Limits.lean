import Setlist.Query.Plan

/-! # Limits of a query

The database reads a query just when its values and its depth are within limits. What is read
is run, unless the plan meets a pattern that is too long.
-/

namespace Setlist

theorem Sql.arguments_wrapped (sql : Sql) (before after : String) :
    Sql.arguments (.text before :: (sql ++ [.text after])) = sql.arguments := by
  simp [Sql.arguments]

namespace Field

theorem depth_le (field : Field) : field.depth ≤ 3 := by
  cases field <;> simp [depth]

end Field

namespace Predicate

theorem equality_depth_le (field : Field) (value : Value) : (equality field value).depth ≤ 4 := by
  unfold equality
  cases field <;> simp [Field.type, Condition.depth, Field.depth]

theorem comparison_depth_le (p : Predicate) (now : Instant) : (p.comparison now).depth ≤ 5 := by
  have hfield := p.field.depth_le
  unfold comparison
  split
  · exact Nat.le_trans (equality_depth_le _ _) (by omega)
  · exact Nat.succ_le_succ (equality_depth_le _ _)
  all_goals
    simp only [Condition.depth]
    omega

theorem condition_depth_le (p : Predicate) (now : Instant) : (p.condition now).depth ≤ 6 := by
  have hfield := p.field.depth_le
  have hcomparison := p.comparison_depth_le now
  unfold condition
  split
  · simp [Condition.depth]
  · split
    · simp only [Condition.depth]
      omega
    · omega

theorem comparison_values_le (p : Predicate) (now : Instant) :
    (p.comparison now).sql.arguments.length ≤ 2 := by
  have hequality : ∀ value, (equality p.field value).sql.arguments.length = 1 := by
    intro value
    unfold equality
    split <;> rfl
  unfold comparison
  split
  case h_1 => exact Nat.le_succ_of_le (Nat.le_of_eq (hequality _))
  case h_2 =>
    rw [Condition.sql, Sql.arguments_wrapped]
    exact Nat.le_succ_of_le (Nat.le_of_eq (hequality _))
  case h_12 => exact Nat.zero_le 2
  all_goals first
    | exact Nat.le_succ 1
    | exact Nat.le_refl 2

theorem condition_values_le (p : Predicate) (now : Instant) :
    (p.condition now).sql.arguments.length ≤ 2 := by
  unfold condition
  split
  · exact Nat.zero_le 2
  · split
    · rw [Condition.sql, Sql.arguments_wrapped]
      exact p.comparison_values_le now
    · exact p.comparison_values_le now

/-- No pattern of the predicate is too long to be matched. -/
def PatternsFit (p : Predicate) : Prop :=
  p.operator.matchKind.isSome → ∀ value ∈ p.values, Condition.isOverlong value.datum = false

theorem patternsFit_of_matchKind {p : Predicate} (h : p.operator.matchKind = none) :
    p.PatternsFit := by
  rw [PatternsFit, h]
  exact nofun

theorem fails_eq_false {p : Predicate} (h : p.PatternsFit) (now : Instant) (read : Field → Cell) :
    (p.condition now).fails read = false := by
  have hequality : ∀ value, (equality p.field value).fails read = false := by
    intro value
    unfold equality
    split <;> rfl
  have hcomparison : (p.comparison now).fails read = false := by
    unfold PatternsFit at h
    unfold comparison
    split <;> simp_all [Condition.fails, Operator.matchKind]
  unfold condition
  split
  case isTrue => rfl
  case isFalse =>
    split
    case isTrue => simp [Condition.fails, hcomparison]
    case isFalse => exact hcomparison

end Predicate

namespace Selection

/-- The depth of operands that are joined from the left; a constant stands for none. -/
def chainDepth : List Nat → Nat
  | [] => 1
  | first :: rest => rest.foldl (fun depth operand => max depth operand + 1) first

def total (counts : List Nat) : Nat := counts.foldr (· + ·) 0

/-- The values that a query binds: those of its joins and conditions, and those of its page. -/
def values (s : Selection) (page : Option PageRequest) : Nat :=
  s.fromSql.arguments.length +
    total (s.groups.map fun group => total (group.map (·.sql.arguments.length))) + pageValues page

/-- The depth of a query: that of its condition, and one for each relation that it joins. -/
def depth (s : Selection) : Nat :=
  chainDepth (s.groups.map fun group => chainDepth (group.map (·.depth))) + s.joins.toList.length

/-- The database reads the query to its end. -/
structure Fits (s : Selection) (page : Option PageRequest) : Prop where
  values : s.values page ≤ mostValues
  depth : s.depth ≤ greatestDepth

instance (s : Selection) (page : Option PageRequest) : Decidable (s.Fits page) :=
  decidable_of_iff (s.values page ≤ mostValues ∧ s.depth ≤ greatestDepth)
    ⟨fun h => ⟨h.1, h.2⟩, fun h => ⟨h.values, h.depth⟩⟩

/-- What in a query is too much for the database. -/
inductive TooLarge (s : Selection) (page : Option PageRequest) : DatabaseFault → Prop where
  | crowded : mostValues < s.values page → s.TooLarge page .tooManyValues
  | deep : greatestDepth < s.depth → s.TooLarge page .queryTooDeep
  | overlong : s.HasOverlong → s.TooLarge page .patternTooLong

/-- A reading ends with all values and the whole depth, or with the limit that stops it. -/
inductive Outcome (values depth : Nat) : Except DatabaseFault Reading → Prop where
  | within : Outcome values depth (.ok ⟨values, depth⟩)
  | crowded : mostValues < values → Outcome values depth (.error .tooManyValues)
  | deep : greatestDepth < depth → Outcome values depth (.error .queryTooDeep)

namespace Outcome

theorem checked (values depth : Nat) : Outcome values depth (Reading.checked ⟨values, depth⟩) := by
  unfold Reading.checked
  split
  case isTrue hvalues => exact .crowded hvalues
  case isFalse =>
    split
    case isTrue hdepth => exact .deep hdepth
    case isFalse => exact .within

/-- What stops a reading stops every longer one. -/
theorem bind {values depth values' depth' : Nat} {x : Except DatabaseFault Reading}
    {f : Reading → Except DatabaseFault Reading} (hx : Outcome values depth x)
    (hvalues : values ≤ values') (hdepth : depth ≤ depth')
    (hf : Outcome values' depth' (f ⟨values, depth⟩)) : Outcome values' depth' (x >>= f) := by
  cases hx with
  | within => exact hf
  | crowded h => exact .crowded (Nat.lt_of_lt_of_le h hvalues)
  | deep h => exact .deep (Nat.lt_of_lt_of_le h hdepth)

theorem le_foldl (rest : List Nat) (start : Nat) :
    start ≤ rest.foldl (fun depth operand => max depth operand + 1) start := by
  induction rest generalizing start with
  | nil => exact Nat.le_refl start
  | cons operand rest ih =>
    have hlater := ih (max start operand + 1)
    rw [List.foldl_cons]
    omega

variable {α : Type} {read : Nat → α → Except DatabaseFault Reading} {values depth : α → Nat}

theorem foldlM (h : ∀ bound operand, Outcome (bound + values operand) (depth operand)
      (read bound operand)) (rest : List α) (reading : Reading) :
    Outcome (reading.values + total (rest.map values))
      ((rest.map depth).foldl (fun depth operand => max depth operand + 1) reading.depth)
      (rest.foldlM (fun reading operand => do
        let next ← read reading.values operand
        Reading.checked ⟨next.values, max reading.depth next.depth + 1⟩) reading) := by
  induction rest generalizing reading with
  | nil => exact .within
  | cons operand rest ih =>
    have hnext : Outcome (reading.values + values operand)
        (max reading.depth (depth operand) + 1) (do
          let next ← read reading.values operand
          Reading.checked ⟨next.values, max reading.depth next.depth + 1⟩) :=
      (h reading.values operand).bind (Nat.le_refl _) (by omega) (checked _ _)
    have hrest := ih ⟨reading.values + values operand, max reading.depth (depth operand) + 1⟩
    have hvalues : reading.values + total ((operand :: rest).map values) =
        reading.values + values operand + total (rest.map values) := (Nat.add_assoc _ _ _).symm
    rw [List.foldlM_cons, hvalues, List.map_cons, List.foldl_cons]
    exact hnext.bind (Nat.le_add_right _ _) (le_foldl _ _) hrest

theorem readChain (h : ∀ bound operand, Outcome (bound + values operand) (depth operand)
      (read bound operand)) (bound : Nat) (operands : List α) :
    Outcome (bound + total (operands.map values)) (chainDepth (operands.map depth))
      (Selection.readChain read bound operands) := by
  cases operands with
  | nil => exact .within
  | cons first rest =>
    have hvalues : bound + total ((first :: rest).map values) =
        bound + values first + total (rest.map values) := (Nat.add_assoc _ _ _).symm
    rw [hvalues]
    exact (h bound first).bind (Nat.le_add_right _ _) (le_foldl _ _)
      (foldlM h rest ⟨bound + values first, depth first⟩)

end Outcome

/-- A query is read to its end, or stopped by the limit that it exceeds. -/
theorem read_cases (s : Selection) (page : Option PageRequest) :
    (s.Fits page ∧ ∃ reading, s.read page = .ok reading) ∨
      ¬s.Fits page ∧ ∃ fault, s.read page = .error fault ∧ s.TooLarge page fault := by
  have hcondition : ∀ bound condition, Outcome (bound + condition.sql.arguments.length)
      condition.depth (readCondition bound condition) := fun _ _ => .checked _ _
  have hchain := Outcome.readChain (Outcome.readChain hcondition)
    s.fromSql.arguments.length s.groups
  unfold read
  generalize readChain (readChain readCondition) s.fromSql.arguments.length s.groups = read
    at hchain
  cases hchain with
  | within =>
    change _ ∧ (∃ reading, Reading.checked ⟨s.values page, s.depth⟩ = .ok reading) ∨
      _ ∧ ∃ fault, Reading.checked ⟨s.values page, s.depth⟩ = .error fault ∧ _
    unfold Reading.checked
    split
    case isTrue hvalues =>
      exact .inr ⟨fun h => Nat.not_lt_of_le h.values hvalues, _, rfl, .crowded hvalues⟩
    case isFalse hvalues =>
      split
      case isTrue hdepth =>
        exact .inr ⟨fun h => Nat.not_lt_of_le h.depth hdepth, _, rfl, .deep hdepth⟩
      case isFalse hdepth =>
        exact .inl ⟨⟨Nat.le_of_not_lt hvalues, Nat.le_of_not_lt hdepth⟩, _, rfl⟩
  | crowded h =>
    have hvalues : mostValues < s.values page := Nat.lt_add_right _ h
    exact .inr ⟨fun hfits => Nat.not_lt_of_le hfits.values hvalues, _, rfl, .crowded hvalues⟩
  | deep h =>
    have hdepth : greatestDepth < s.depth := Nat.lt_add_right _ h
    exact .inr ⟨fun hfits => Nat.not_lt_of_le hfits.depth hdepth, _, rfl, .deep hdepth⟩

section Faults

variable {s : Selection} {plan : Plan} {page : Option PageRequest} {c : Catalogue}

theorem fault?_of_fits (h : s.Fits page) : s.fault? plan page c =
    if plan.meets s page c then some .patternTooLong else none := by
  obtain ⟨-, reading, hread⟩ := (s.read_cases page).resolve_right fun hnot => hnot.1 h
  rw [fault?, hread]

theorem exists_fault?_of_not_fits (h : ¬s.Fits page) (plan : Plan) (c : Catalogue) :
    ∃ fault, s.fault? plan page c = some fault ∧ s.TooLarge page fault := by
  obtain ⟨-, fault, hread, hlarge⟩ := (s.read_cases page).resolve_left fun hfits => h hfits.1
  exact ⟨fault, by rw [fault?, hread], hlarge⟩

theorem tooLarge_of_fault? {fault : DatabaseFault} (h : s.fault? plan page c = some fault) :
    s.TooLarge page fault := by
  by_cases hfits : s.Fits page
  · rw [fault?_of_fits hfits] at h
    split at h
    case isTrue hmeets =>
      obtain rfl := Option.some.inj h
      exact .overlong (plan.overlong hmeets)
    case isFalse => cases h
  · obtain ⟨found, hfound, hlarge⟩ := exists_fault?_of_not_fits hfits plan c
    obtain rfl := Option.some.inj (hfound.symm.trans h)
    exact hlarge

theorem not_tooLarge {fault : DatabaseFault} (hfits : s.Fits page) (hshort : ¬s.HasOverlong) :
    ¬s.TooLarge page fault := by
  intro hlarge
  cases hlarge with
  | crowded hvalues => exact Nat.not_lt_of_le hfits.values hvalues
  | deep hdepth => exact Nat.not_lt_of_le hfits.depth hdepth
  | overlong hlong => exact hshort hlong

theorem fault?_eq_none (hfits : s.Fits page) (hshort : ¬s.HasOverlong) :
    s.fault? plan page c = none :=
  Option.eq_none_iff_forall_ne_some.mpr fun _ hfault =>
    not_tooLarge hfits hshort (tooLarge_of_fault? hfault)

theorem fault?_congr {d : Catalogue} (h : s.SeesAlike c d) (plan : Plan)
    (page : Option PageRequest) :
    s.fault? plan page c = s.fault? plan page d := by
  rw [fault?, fault?, plan.alike h]

end Faults

/-- Operands up to a depth, joined one after another, add one each. -/
theorem chainDepth_le {depths : List Nat} {bound : Nat} (hbound : 0 < bound)
    (h : ∀ depth ∈ depths, depth ≤ bound) : chainDepth depths ≤ bound + (depths.length - 1) := by
  have hfold : ∀ (rest : List Nat) (start : Nat), (∀ depth ∈ rest, depth ≤ bound) →
      rest.foldl (fun depth operand => max depth operand + 1) start ≤
        max start bound + rest.length := by
    intro rest
    induction rest with
    | nil => exact fun start _ => Nat.le_max_left start bound
    | cons depth rest ih =>
      intro start hrest
      have hdepth := hrest depth List.mem_cons_self
      have hlater := ih (max start depth + 1) fun d hd => hrest d (List.mem_cons_of_mem _ hd)
      rw [List.foldl_cons, List.length_cons]
      omega
  cases depths with
  | nil => exact hbound
  | cons first rest =>
    have hfirst := h first List.mem_cons_self
    have hrest := hfold rest first fun d hd => h d (List.mem_cons_of_mem _ hd)
    rw [chainDepth, List.length_cons]
    omega

theorem total_le_length {α : Type} {count : α → Nat} {items : List α}
    (h : ∀ item ∈ items, count item ≤ 2) : total (items.map count) ≤ 2 * items.length := by
  induction items with
  | nil => exact Nat.le_refl 0
  | cons item rest ih =>
    have hitem := h item List.mem_cons_self
    have hrest := ih fun other hother => h other (List.mem_cons_of_mem _ hother)
    simp only [total, List.map_cons, List.foldr_cons, List.length_cons] at hrest ⊢
    omega

section Expressions

variable {e : Expression} {joins : Joins} {order : SortOrder} {now : Instant}

theorem chainDepth_conditions_le (now : Instant) {longest : Nat}
    (h : ∀ group ∈ e.groups, group.length ≤ longest) :
    chainDepth (e.groups.map fun group => chainDepth (group.map fun p => (p.condition now).depth)) ≤
      6 + (longest - 1) + (e.groups.length - 1) := by
  have hgroup : ∀ depth ∈ e.groups.map fun group =>
      chainDepth (group.map fun p => (p.condition now).depth), depth ≤ 6 + (longest - 1) := by
    intro depth hdepth
    obtain ⟨group, hmem, rfl⟩ := List.mem_map.mp hdepth
    have hlength := h group hmem
    have hdepths : ∀ depth ∈ group.map fun p => (p.condition now).depth, depth ≤ 6 := by
      simp [Predicate.condition_depth_le]
    have hchain := chainDepth_le (by omega) hdepths
    rw [List.length_map] at hchain
    exact Nat.le_trans hchain (by omega)
  have hgroups := chainDepth_le (by omega) hgroup
  rwa [List.length_map] at hgroups

theorem total_conditions_le (e : Expression) (now : Instant) :
    total (e.groups.map fun group =>
        total (group.map fun p => (p.condition now).sql.arguments.length)) ≤
      2 * e.predicateCount := by
  rw [Expression.predicateCount]
  induction e.groups with
  | nil => exact Nat.le_refl 0
  | cons group rest ih =>
    have hgroup : total (group.map fun p => (p.condition now).sql.arguments.length) ≤
        2 * group.length := total_le_length fun p _ => p.condition_values_le now
    simp only [total, List.map_cons, List.foldr_cons] at hgroup ih ⊢
    omega

theorem fromSql_values_le (s : Selection) : s.fromSql.arguments.length ≤ 1 := by
  obtain ⟨⟨album, artist, interaction⟩, user, groups, order⟩ := s
  cases album <;> cases artist <;> cases interaction <;> exact Nat.le_of_ble_eq_true rfl

theorem pageValues_le (page : Option PageRequest) : pageValues page ≤ 2 := by
  cases page <;> simp [pageValues]

/-- An expression of no more rules than this, in groups neither too many nor too long, fits
whatever the rules are. -/
theorem fits_of_few (hcount : e.predicateCount ≤ 16381)
    (hshort : ∀ group ∈ e.groups, e.groups.length + group.length ≤ 992)
    (page : Option PageRequest) : (ofExpression e joins order now).Fits page := by
  constructor
  case values =>
    have hfrom := fromSql_values_le (ofExpression e joins order now)
    have htotal := total_conditions_le e now
    have hpage := pageValues_le page
    rw [values, mostValues]
    simp only [ofExpression, List.map_map, Function.comp_def] at hfrom ⊢
    omega
  case depth =>
    have hjoins : joins.toList.length ≤ 3 := List.length_filter_le _ _
    rw [depth, greatestDepth]
    simp only [ofExpression, List.map_map, Function.comp_def]
    cases hgroups : e.groups with
    | nil =>
      simp only [List.map_nil, chainDepth]
      omega
    | cons group rest =>
      have hfirst := hshort group (hgroups ▸ List.mem_cons_self)
      have hlength : 0 < e.groups.length := by simp [hgroups]
      have hlongest : ∀ group ∈ e.groups, group.length ≤ 992 - e.groups.length :=
        fun group hgroup => Nat.le_sub_of_add_le' (hshort group hgroup)
      have hchain := chainDepth_conditions_le now hlongest
      rw [hgroups] at hchain hfirst
      simp only [List.length_cons] at hchain hfirst
      omega

theorem not_hasOverlong (h : ∀ group ∈ e.groups, ∀ p ∈ group, p.PatternsFit) :
    ¬(ofExpression e joins order now).HasOverlong := by
  intro ⟨_, hconditions, _, hcondition, read, hfails⟩
  obtain ⟨group, hgroup, rfl⟩ := List.mem_map.mp hconditions
  obtain ⟨p, hp, rfl⟩ := List.mem_map.mp hcondition
  rw [Predicate.fails_eq_false (h group hgroup p hp)] at hfails
  cases hfails

end Expressions

end Selection

end Setlist
