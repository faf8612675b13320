import Mathlib.Data.List.Sort
import Setlist.Proofs.Rule.Accepted

/-! # Compiling many groups

Every rule at fault is reported with its place, in the order of the places. A group compiles to
the predicates of its rules, or to nothing if some rule of it is at fault, whatever stands beside
it. What is joined is what the predicates need that are left.
-/

namespace Setlist

namespace Joins

theorem has_union {a b : Joins} {relation : Relation} :
    (a.union b).has relation = true ↔ a.has relation = true ∨ b.has relation = true := by
  cases relation <;> exact Bool.or_eq_true_iff

theorem has_unions {all : List Joins} {relation : Relation} :
    (unions all).has relation = true ↔ ∃ joins ∈ all, joins.has relation = true := by
  induction all with
  | nil => cases relation <;> simp [unions, none, has]
  | cons first rest ih =>
    rw [unions, List.foldr_cons, has_union, ← unions, ih]
    simp

theorem has_ofOption {needed : Option Relation} {relation : Relation} :
    (ofOption needed).has relation = true ↔ needed = some relation := by
  cases needed with
  | none => cases relation <;> decide
  | some other => cases other <;> cases relation <;> decide

theorem eq_of_has_iff {a b : Joins}
    (h : ∀ relation, a.has relation = true ↔ b.has relation = true) : a = b := by
  obtain ⟨album, artist, interaction⟩ := a
  obtain ⟨album', artist', interaction'⟩ := b
  have halbum : album = album' := Bool.eq_iff_iff.mpr (h .album)
  have hartist : artist = artist' := Bool.eq_iff_iff.mpr (h .artist)
  have hinteraction : interaction = interaction' := Bool.eq_iff_iff.mpr (h .interaction)
  rw [halbum, hartist, hinteraction]

theorem union_assoc (a b c : Joins) : (a.union b).union c = a.union (b.union c) := by
  simp only [union, Bool.or_assoc]

theorem unions_append (all more : List Joins) :
    unions (all ++ more) = (unions all).union (unions more) := by
  induction all with
  | nil => rfl
  | cons first rest ih =>
    rw [unions, List.cons_append, List.foldr_cons, ← unions, ih, ← union_assoc]
    rfl

end Joins

namespace RuleFault

/-- The fault is that of a rule of the groups, with its place and its id. -/
def IsOf (fault : RuleFault) (groups : List GroupRecord) : Prop :=
  ∃ group record, groups[fault.group]? = some group ∧ group.rules[fault.rule]? = some record ∧
    fault.ruleId = record.id ∧ record.compile = .error fault.cause

def Precedes (fault other : RuleFault) : Prop :=
  fault.group < other.group ∨ fault.group = other.group ∧ fault.rule < other.rule

instance : Std.Asymm Precedes where
  asymm fault other := by
    unfold Precedes
    omega

/-- The same fault where so many groups stand before its own. -/
def shift (count : Nat) (fault : RuleFault) : RuleFault :=
  { fault with group := count + fault.group }

end RuleFault

theorem pairwise_zipIdx {α : Type} (items : List α) :
    items.zipIdx.Pairwise fun item other => item.2 < other.2 := by
  rw [← List.pairwise_map (f := Prod.snd), List.zipIdx_map_snd]
  exact List.pairwise_lt_range'

namespace GroupRecord

variable {group : GroupRecord} {place : Nat} {fault : RuleFault} {groups : List GroupRecord}

theorem mem_faults : fault ∈ group.faults place ↔ fault.group = place ∧
    ∃ record, group.rules[fault.rule]? = some record ∧ fault.ruleId = record.id ∧
      record.compile = .error fault.cause := by
  rw [faults, List.mem_filterMap]
  constructor
  · rintro ⟨⟨record, rule⟩, hrecord, hfault⟩
    dsimp only at hfault
    split at hfault
    case h_1 => cases hfault
    case h_2 cause hcause =>
      obtain rfl := Option.some.inj hfault
      exact ⟨rfl, record, List.mk_mem_zipIdx_iff_getElem?.mp hrecord, rfl, hcause⟩
  · obtain ⟨_, rule, _, cause⟩ := fault
    rintro ⟨rfl, record, hrecord, rfl, hcause⟩
    refine ⟨(record, rule), List.mk_mem_zipIdx_iff_getElem?.mpr hrecord, ?_⟩
    simp only [hcause]

theorem mem_allFaults : fault ∈ allFaults groups ↔ fault.IsOf groups := by
  rw [allFaults, List.mem_flatMap]
  constructor
  · rintro ⟨⟨group, place⟩, hgroup, hfault⟩
    obtain ⟨rfl, record, hrecord, hid, hcause⟩ := mem_faults.mp hfault
    exact ⟨group, record, List.mk_mem_zipIdx_iff_getElem?.mp hgroup, hrecord, hid, hcause⟩
  · rintro ⟨group, record, hgroup, hrecord, hid, hcause⟩
    exact ⟨(group, fault.group), List.mk_mem_zipIdx_iff_getElem?.mpr hgroup,
      mem_faults.mpr ⟨rfl, record, hrecord, hid, hcause⟩⟩

theorem pairwise_faults (group : GroupRecord) (place : Nat) :
    (group.faults place).Pairwise RuleFault.Precedes := by
  refine List.pairwise_filterMap.mpr ((pairwise_zipIdx group.rules).imp ?_)
  rintro ⟨record, rule⟩ ⟨other, later⟩ hless fault hfault fault' hfault'
  dsimp only at hfault hfault'
  split at hfault
  case h_1 => cases hfault
  case h_2 =>
    split at hfault'
    case h_1 => cases hfault'
    case h_2 =>
      obtain rfl := Option.some.inj hfault
      obtain rfl := Option.some.inj hfault'
      exact .inr ⟨rfl, hless⟩

theorem pairwise_allFaults (groups : List GroupRecord) :
    (allFaults groups).Pairwise RuleFault.Precedes := by
  refine List.pairwise_flatMap.mpr
    ⟨fun (group, place) _ => pairwise_faults group place, (pairwise_zipIdx groups).imp ?_⟩
  rintro ⟨group, place⟩ ⟨other, later⟩ hless fault hfault fault' hfault'
  obtain ⟨rfl, -⟩ := mem_faults.mp hfault
  obtain ⟨rfl, -⟩ := mem_faults.mp hfault'
  exact .inl hless

theorem faults_shift (group : GroupRecord) (count place : Nat) :
    group.faults (count + place) = (group.faults place).map (.shift count) := by
  rw [faults, faults, List.map_filterMap]
  refine List.filterMap_congr ?_
  rintro ⟨record, rule⟩ -
  dsimp only
  split <;> rfl

theorem allFaults_append (groups more : List GroupRecord) :
    allFaults (groups ++ more) =
      allFaults groups ++ (allFaults more).map (.shift groups.length) := by
  rw [allFaults, List.zipIdx_append, List.flatMap_append, Nat.zero_add,
    List.zipIdx_eq_map_add (i := groups.length), List.flatMap_map, allFaults, allFaults,
    List.map_flatMap]
  refine congrArg _ (List.flatMap_congr ?_)
  rintro ⟨group, place⟩ -
  exact faults_shift group groups.length place

/-- A group compiles to the predicates of its rules in order, or to none if one is at fault. -/
inductive CompilesTo (group : GroupRecord) : List Predicate → Prop where
  | valid {ps : List Predicate} :
      List.Forall₂ (fun record p => record.compile = .ok p) group.rules ps → group.CompilesTo ps
  | faulty {record : RuleRecord} {cause : RuleError} : record ∈ group.rules →
      record.compile = .error cause → group.CompilesTo []

theorem compilesTo_predicates (group : GroupRecord) : group.CompilesTo group.predicates := by
  unfold predicates
  split
  case h_1 ps hps => exact .valid (Except.mapM_eq_ok.mp hps)
  case h_2 cause hcause =>
    obtain ⟨before, record, after, hrules, -, hrecord⟩ := Except.mapM_eq_error.mp hcause
    exact .faulty (hrules ▸ List.mem_append_right _ List.mem_cons_self) hrecord

/-- What groups compile to for a user, said group by group and rule by rule. -/
structure Batch (user : Int) (groups : List GroupRecord) (e : Expression)
    (faults : List RuleFault) : Prop where
  user : e.user = user
  joins : ∀ relation, e.joins.has relation = true ↔
    ∃ ps ∈ e.groups, ∃ p ∈ ps, p.field.relation = some relation
  ordered : faults.Pairwise RuleFault.Precedes
  faults : ∀ fault, fault ∈ faults ↔ fault.IsOf groups
  groups : List.Forall₂ CompilesTo groups e.groups

theorem exists_of_mem_rules {ps : List Predicate}
    (h : List.Forall₂ (fun record p => record.compile = .ok p) group.rules ps)
    {record : RuleRecord} (hrecord : record ∈ group.rules) : ∃ p, record.compile = .ok p := by
  obtain ⟨p, -, hp⟩ := exists_of_forall₂ h.flip hrecord
  exact ⟨p, hp⟩

theorem CompilesTo.unique {ps others : List Predicate} (h : group.CompilesTo ps)
    (hothers : group.CompilesTo others) : ps = others := by
  cases h with
  | valid hps =>
    cases hothers with
    | valid hothers =>
      exact Except.ok.inj ((Except.mapM_eq_ok.mpr hps).symm.trans (Except.mapM_eq_ok.mpr hothers))
    | faulty hrecord hcause =>
      obtain ⟨p, hp⟩ := exists_of_mem_rules hps hrecord
      cases hp.symm.trans hcause
  | faulty hrecord hcause =>
    cases hothers with
    | valid hothers =>
      obtain ⟨p, hp⟩ := exists_of_mem_rules hothers hrecord
      cases hp.symm.trans hcause
    | faulty => rfl

theorem joins_of_mem_predicates {p : Predicate} (hp : p ∈ group.predicates) :
    p.joins = .ofOption p.field.relation := by
  obtain ⟨record, -, hrecord⟩ := exists_record hp
  exact (RuleRecord.compile_eq_ok.mp hrecord).2.2

theorem batch_compile (user : Int) (groups : List GroupRecord) :
    Batch user groups (compile user groups).1 (compile user groups).2 where
  user := rfl
  joins relation := by
    have hneeds {ps : List Predicate} (hps : ps ∈ groups.map predicates) {p : Predicate}
        (hp : p ∈ ps) : p.joins.has relation = true ↔ p.field.relation = some relation := by
      obtain ⟨group, -, rfl⟩ := List.mem_map.mp hps
      rw [joins_of_mem_predicates hp, Joins.has_ofOption]
    change (Joins.unions ((groups.map predicates).flatten.map (·.joins))).has relation = true ↔
      ∃ ps ∈ groups.map predicates, ∃ p ∈ ps, p.field.relation = some relation
    rw [Joins.has_unions]
    constructor
    · rintro ⟨_, hjoins, hhas⟩
      obtain ⟨p, hmem, rfl⟩ := List.mem_map.mp hjoins
      obtain ⟨ps, hps, hp⟩ := List.mem_flatten.mp hmem
      exact ⟨ps, hps, p, hp, (hneeds hps hp).mp hhas⟩
    · rintro ⟨ps, hps, p, hp, hrelation⟩
      exact ⟨p.joins, List.mem_map_of_mem (List.mem_flatten.mpr ⟨ps, hps, hp⟩),
        (hneeds hps hp).mpr hrelation⟩
  ordered := pairwise_allFaults groups
  faults _ := mem_allFaults
  groups := List.forall₂_map_right_iff.mpr
    (List.forall₂_same.mpr fun group _ => group.compilesTo_predicates)

theorem compile_eq_iff_batch {user : Int} {e : Expression} {reported : List RuleFault} :
    compile user groups = (e, reported) ↔ Batch user groups e reported := by
  constructor
  · intro h
    have hbatch := batch_compile user groups
    rwa [h] at hbatch
  · intro h
    have hbatch := batch_compile user groups
    have hgroups : (compile user groups).1.groups = e.groups :=
      List.right_unique_forall₂' (fun _ _ _ hps hothers => hps.unique hothers) hbatch.groups
        h.groups
    have hjoins : (compile user groups).1.joins = e.joins := Joins.eq_of_has_iff fun relation => by
      rw [hbatch.joins, h.joins, hgroups]
    have hfaults : (compile user groups).2 = reported :=
      hbatch.ordered.eq_of_mem_iff h.ordered fun fault =>
        (hbatch.faults fault).trans (h.faults fault).symm
    obtain ⟨user', groups', joins⟩ := e
    obtain rfl : user' = user := h.user
    obtain rfl : _ = groups' := hgroups
    obtain rfl : _ = joins := hjoins
    obtain rfl := hfaults
    rfl

theorem compileStrict_iff (user : Int) (groups : List GroupRecord) :
    (∀ e, compileStrict user groups = .ok e ↔ compile user groups = (e, [])) ∧
      ∀ reported, compileStrict user groups = .error reported ↔
        reported ≠ [] ∧ ∃ e, compile user groups = (e, reported) := by
  rw [compileStrict]
  obtain ⟨e, reported⟩ := compile user groups
  cases reported with
  | nil => simp
  | cons fault more => constructor <;> simp

theorem compile_append (user : Int) (groups more : List GroupRecord) :
    compile user (groups ++ more) =
      (⟨user, (compile user groups).1.groups ++ (compile user more).1.groups,
        (compile user groups).1.joins.union (compile user more).1.joins⟩,
        (compile user groups).2 ++ (compile user more).2.map (.shift groups.length)) := by
  simp only [compile, Expression.ofGroups, allFaults_append, List.map_append, List.flatten_append,
    Joins.unions_append]

def isValid (group : GroupRecord) : Bool := group.rules.all fun record => record.compile.isOk

theorem isValid_iff : group.isValid = true ↔
    ∀ record ∈ group.rules, ∃ p, record.compile = .ok p := by
  rw [isValid, List.all_eq_true]
  refine forall₂_congr fun record _ => ?_
  cases record.compile <;> simp [Except.isOk, Except.toBool]

theorem accepted_filter_isValid (groups : List GroupRecord) :
    Accepted (groups.filter isValid) :=
  fun _ hgroup => isValid_iff.mp (List.mem_filter.mp hgroup).2

theorem CompilesTo.eq_nil {ps : List Predicate} (h : group.CompilesTo ps)
    (hnot : group.isValid = false) : ps = [] := by
  cases h with
  | valid hps =>
    have hvalid : group.isValid = true := isValid_iff.mpr fun _ => exists_of_mem_rules hps
    cases hvalid.symm.trans hnot
  | faulty => rfl

end GroupRecord

end Setlist
