import Setlist.Proofs.Cache.Framing
import Setlist.Proofs.Json.Parsing
import Setlist.Proofs.Rule.Accepted

/-! # Rule content is faithful

Two lists of groups have the same bytes for the same user exactly when their rules agree in
all that they ask. Rules that agree compile alike, except that each fault bears its own id.
-/

namespace Setlist

namespace RuleRecord

/-- The rules ask the same, whatever their ids and the display hints of their fields. -/
structure Agrees (r s : RuleRecord) : Prop where
  fieldName : r.field.fieldName = s.field.fieldName
  operator : r.operator = s.operator
  values : r.values = s.values

/-- The values can be read from JSON, and eight bytes hold every length. -/
structure Fits (r : RuleRecord) : Prop where
  fieldName : Content.Counted r.field.fieldName.utf8ByteSize
  operator : Content.Counted r.operator.utf8ByteSize
  count : Content.Counted r.values.length
  values : ∀ value ∈ r.values, value.IsValid ∧ Content.Counted value.text.utf8ByteSize

end RuleRecord

namespace GroupRecord

def Agrees (g h : GroupRecord) : Prop := List.Forall₂ RuleRecord.Agrees g.rules h.rules

structure Fits (g : GroupRecord) : Prop where
  count : Content.Counted g.rules.length
  rules : ∀ rule ∈ g.rules, rule.Fits

def AllAgree (gs hs : List GroupRecord) : Prop := List.Forall₂ Agrees gs hs

structure AllFit (gs : List GroupRecord) : Prop where
  count : Content.Counted gs.length
  groups : ∀ group ∈ gs, group.Fits

end GroupRecord

namespace Content

theorem Framed.congr {α : Type} {bytes : α → List UInt8} {fits fits' : α → Prop}
    {same same' : α → α → Prop} (h : Framed bytes fits same) (hfits : ∀ a, fits' a → fits a)
    (hsame : ∀ a b, fits' a → fits' b → (same a b ↔ same' a b)) : Framed bytes fits' same' := by
  intro a b ha hb r s
  rw [h (hfits a ha) (hfits b hb), hsame a b ha hb]

theorem framed_valueBytes : Framed valueBytes
    (fun value => value.IsValid ∧ Counted value.text.utf8ByteSize) (· = ·) := by
  apply (framed_textBytes.comap Json.text).congr (fun value h => h.2)
  rintro a b ⟨ha, -⟩ ⟨hb, -⟩
  exact ⟨Json.text_injective ha hb, congrArg Json.text⟩

theorem framed_ruleBytes : Framed ruleBytes RuleRecord.Fits RuleRecord.Agrees := by
  have hnames := (framed_textBytes.comap fun rule : RuleRecord => rule.field.fieldName).append
    (framed_textBytes.comap RuleRecord.operator)
  refine (hnames.append (framed_valueBytes.list.comap RuleRecord.values)).congr ?_ ?_
  · rintro rule ⟨hname, hoperator, hcount, hvalues⟩
    exact ⟨⟨hname, hoperator⟩, hcount, hvalues⟩
  · intro r s _ _
    rw [List.forall₂_eq_eq_eq]
    constructor
    · rintro ⟨⟨hname, hoperator⟩, hvalues⟩
      exact ⟨hname, hoperator, hvalues⟩
    · rintro ⟨hname, hoperator, hvalues⟩
      exact ⟨⟨hname, hoperator⟩, hvalues⟩

theorem framed_groupBytes : Framed groupBytes GroupRecord.Fits GroupRecord.Agrees := by
  refine (framed_ruleBytes.list.comap GroupRecord.rules).congr ?_ fun _ _ _ _ => Iff.rfl
  rintro group ⟨hcount, hrules⟩
  exact ⟨hcount, hrules⟩

theorem framed_groups :
    Framed (listBytes groupBytes) GroupRecord.AllFit GroupRecord.AllAgree := by
  refine framed_groupBytes.list.congr ?_ fun _ _ _ _ => Iff.rfl
  rintro groups ⟨hcount, hgroups⟩
  exact ⟨hcount, hgroups⟩

def IsWord (user : Int) : Prop := -2 ^ 63 ≤ user ∧ user < 2 ^ 63

theorem framed_wordBytes : Framed wordBytes IsWord (· = ·) := by
  have hword := framed_countBytes.comap fun i : Int => (i % 2 ^ 64).toNat
  refine hword.congr ?_ ?_
  · rintro i -
    unfold Counted
    omega
  · intro i j hi hj
    unfold IsWord at hi hj
    constructor
    · intro h
      omega
    · rintro rfl
      rfl

theorem isWord_toInt (u : Int64) : IsWord u.toInt := ⟨u.le_toInt, u.toInt_lt⟩

theorem bytes_eq_iff_agree {u v : Int64} {gs hs : List GroupRecord} (hgs : GroupRecord.AllFit gs)
    (hhs : GroupRecord.AllFit hs) :
    bytes u.toInt gs = bytes v.toInt hs ↔ u = v ∧ GroupRecord.AllAgree gs hs := by
  rw [bytes, bytes, framed_wordBytes (isWord_toInt u) (isWord_toInt v),
    framed_groups.bytes_eq_iff hgs hhs]
  exact and_congr_left' Int64.toInt_inj

end Content

/-- The fault as it is found in any rule that asks the same. -/
def RuleFault.anonymous (fault : RuleFault) : RuleFault := { fault with ruleId := none }

namespace Rule

theorem ofRecord_of_agrees {r s : RuleRecord} (h : r.Agrees s) :
    ofRecord s = (ofRecord r).map fun rule => { rule with id := s.id } := by
  obtain ⟨hname, hoperator, hvalues⟩ := h
  unfold ofRecord
  rw [← hname, ← hoperator, ← hvalues]
  cases Field.resolve r.field.fieldName with
  | error fault => rfl
  | ok field =>
    cases Operator.resolve r.operator with
    | error fault => rfl
    | ok operator =>
      simp only [bind, Except.bind, pure, Except.pure, throw, throwThe, MonadExceptOf.throw]
      repeat' split
      all_goals rfl

end Rule

theorem RuleRecord.Agrees.compile_eq {r s : RuleRecord} (h : r.Agrees s) :
    r.compile = s.compile := by
  rw [RuleRecord.compile, RuleRecord.compile, Rule.ofRecord_of_agrees h]
  cases Rule.ofRecord r <;> rfl

namespace GroupRecord

theorem mapM_compile_of_agree {rs ss : List RuleRecord} (h : List.Forall₂ RuleRecord.Agrees rs ss) :
    rs.mapM RuleRecord.compile = ss.mapM RuleRecord.compile := by
  induction h with
  | nil => rfl
  | cons hrule _ ih => rw [List.mapM_cons, List.mapM_cons, hrule.compile_eq, ih]

theorem Agrees.predicates_eq {g h : GroupRecord} (hagree : g.Agrees h) :
    g.predicates = h.predicates := by
  rw [predicates, predicates, mapM_compile_of_agree hagree]

def faultOf (place rule : Nat) (ruleId : Option Int) : Except RuleError Predicate → Option RuleFault
  | .ok _ => none
  | .error cause => some ⟨place, rule, ruleId, cause⟩

theorem faults_eq (group : GroupRecord) (place : Nat) : group.faults place =
    group.rules.zipIdx.filterMap fun (r, rule) => faultOf place rule r.id r.compile := by
  refine List.filterMap_congr fun (r, rule) _ => ?_
  dsimp only
  cases r.compile <;> rfl

theorem anonymous_faultOf (place rule : Nat) (ruleId otherId : Option Int)
    (result : Except RuleError Predicate) :
    (faultOf place rule ruleId result).map RuleFault.anonymous =
      (faultOf place rule otherId result).map RuleFault.anonymous := by
  cases result <;> rfl

theorem anonymous_faults_from {rs ss : List RuleRecord}
    (h : List.Forall₂ RuleRecord.Agrees rs ss) (place : Nat) : ∀ first : Nat,
    (rs.zipIdx first).filterMap (fun (r, rule) =>
        (faultOf place rule r.id r.compile).map RuleFault.anonymous) =
      (ss.zipIdx first).filterMap fun (s, rule) =>
        (faultOf place rule s.id s.compile).map RuleFault.anonymous := by
  induction h with
  | nil => exact fun _ => rfl
  | @cons r s _ _ hrule _ ih =>
    intro first
    have hfirst := anonymous_faultOf place first r.id s.id s.compile
    simp only [List.zipIdx_cons, List.filterMap_cons, hrule.compile_eq, hfirst, ih]

theorem Agrees.anonymous_faults {g h : GroupRecord} (hagree : g.Agrees h) (place : Nat) :
    (g.faults place).map RuleFault.anonymous = (h.faults place).map RuleFault.anonymous := by
  rw [faults_eq, faults_eq, List.map_filterMap, List.map_filterMap]
  exact anonymous_faults_from hagree place 0

theorem anonymous_allFaults_from {gs hs : List GroupRecord} (h : AllAgree gs hs) : ∀ first : Nat,
    ((gs.zipIdx first).flatMap fun (group, place) => group.faults place).map RuleFault.anonymous =
      ((hs.zipIdx first).flatMap fun (group, place) => group.faults place).map
        RuleFault.anonymous := by
  induction h with
  | nil => exact fun _ => rfl
  | cons hgroup _ ih =>
    intro first
    simp only [List.zipIdx_cons, List.flatMap_cons, List.map_append, hgroup.anonymous_faults, ih]

theorem AllAgree.anonymous_allFaults {gs hs : List GroupRecord} (h : AllAgree gs hs) :
    (allFaults gs).map RuleFault.anonymous = (allFaults hs).map RuleFault.anonymous :=
  anonymous_allFaults_from h 0

theorem AllAgree.map_predicates {gs hs : List GroupRecord} (h : AllAgree gs hs) :
    gs.map predicates = hs.map predicates := by
  induction h with
  | nil => rfl
  | cons hgroup _ ih => rw [List.map_cons, List.map_cons, hgroup.predicates_eq, ih]

/-- Groups that agree make one expression, and the same faults but for the ids they bear. -/
theorem AllAgree.compile_eq {gs hs : List GroupRecord} (h : AllAgree gs hs) (user : Int) :
    (compile user gs).1 = (compile user hs).1 ∧
      (compile user gs).2.map RuleFault.anonymous = (compile user hs).2.map RuleFault.anonymous :=
  ⟨congrArg (Expression.ofGroups user) h.map_predicates, h.anonymous_allFaults⟩

theorem AllAgree.accepted {gs hs : List GroupRecord} (h : AllAgree gs hs) (hgs : Accepted gs) :
    Accepted hs := by
  have hfaults := h.anonymous_allFaults
  rw [allFaults_eq_nil.mpr hgs, List.map_nil, eq_comm, List.map_eq_nil_iff] at hfaults
  exact allFaults_eq_nil.mp hfaults

theorem AllAgree.compileStrict_eq_ok {gs hs : List GroupRecord} (h : AllAgree gs hs) {user : Int}
    {e : Expression} (hgs : compileStrict user gs = .ok e) : compileStrict user hs = .ok e := by
  obtain ⟨haccepted, rfl⟩ := GroupRecord.compileStrict_eq_ok.mp hgs
  refine GroupRecord.compileStrict_eq_ok.mpr ⟨h.accepted haccepted, ?_⟩
  rw [h.map_predicates]

end GroupRecord

namespace Content

/-- The bytes of rules tell the user and all that the rules ask, and so what they compile to.
The two zeros of JSON are told apart, as are an integer and a real number of one value. -/
theorem bytes_faithful {u v : Int64} {gs hs : List GroupRecord} (hgs : GroupRecord.AllFit gs)
    (hhs : GroupRecord.AllFit hs) :
    (bytes u.toInt gs = bytes v.toInt hs ↔ u = v ∧ GroupRecord.AllAgree gs hs) ∧
      (bytes u.toInt gs = bytes v.toInt hs →
        (GroupRecord.compile u.toInt gs).1 = (GroupRecord.compile v.toInt hs).1 ∧
          (GroupRecord.compile u.toInt gs).2.map RuleFault.anonymous =
            (GroupRecord.compile v.toInt hs).2.map RuleFault.anonymous) := by
  refine ⟨bytes_eq_iff_agree hgs hhs, fun h => ?_⟩
  obtain ⟨rfl, hagree⟩ := (bytes_eq_iff_agree hgs hhs).mp h
  exact hagree.compile_eq u.toInt

/-- One rule on the title, in a group of its own. -/
def titled (id : Option Int) (field : FieldRef) : List GroupRecord :=
  [⟨id, [⟨id, field, "is", [.string "a"]⟩]⟩]

theorem allFit_single (id : Option Int) {field : FieldRef} {operator literal : String}
    (hfield : Counted field.fieldName.utf8ByteSize) (hoperator : Counted operator.utf8ByteSize)
    (hliteral : Counted (Json.string literal).text.utf8ByteSize) :
    GroupRecord.AllFit [⟨id, [⟨id, field, operator, [.string literal]⟩]⟩] := by
  have hone : Counted 1 := by decide
  have hrule : RuleRecord.Fits ⟨id, field, operator, [.string literal]⟩ :=
    ⟨hfield, hoperator, hone, fun value h => List.mem_singleton.mp h ▸ ⟨trivial, hliteral⟩⟩
  have hgroup : GroupRecord.Fits ⟨id, [⟨id, field, operator, [.string literal]⟩]⟩ :=
    ⟨hone, fun rule h => List.mem_singleton.mp h ▸ hrule⟩
  exact ⟨hone, fun group h => List.mem_singleton.mp h ▸ hgroup⟩

theorem allFit_titled (id : Option Int) {field : FieldRef} (h : field.fieldName = "song.title") :
    GroupRecord.AllFit (titled id field) :=
  allFit_single id (h ▸ by decide) (by decide) (by decide)

/-- Neither ids nor display hints are part of the content. -/
theorem bytes_faithful_of_hints :
    bytes 1 (titled (some 1) (.named "song.title")) =
      bytes 1 (titled none (.described ⟨"song.title", some "text", none, none⟩)) :=
  (bytes_faithful (u := 1) (v := 1) (allFit_titled (some 1) rfl) (allFit_titled none rfl)).1.mpr
    ⟨rfl, .cons (.cons ⟨rfl, rfl, rfl⟩ .nil) .nil⟩

end Content

end Setlist
