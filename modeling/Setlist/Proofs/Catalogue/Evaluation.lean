import Setlist.Proofs.Catalogue.Hydration
import Setlist.Proofs.Catalogue.Matching
import Setlist.Proofs.Query.Limits
import Setlist.Proofs.Query.Meaning
import Setlist.Proofs.Query.Plans

/-! # Evaluation

A list of groups matches the union, over its nonempty groups, of what all rules of a group
match one by one. Evaluation counts these songs and hands out a slice of them in order, and
it fails only where a query is beyond what the database can run.
-/

namespace Setlist

namespace Expression

open Catalogue

/-- Both queries of an expression are read to their ends. -/
def Fits (e : Expression) (order : SortOrder) (page : PageRequest) (now : Instant) : Prop :=
  (counting e order now).Fits none ∧ (listing e order now).Fits (some page)

/-- What in the queries of an expression is too much for the database. -/
def TooLarge (e : Expression) (order : SortOrder) (page : PageRequest) (now : Instant)
    (fault : DatabaseFault) : Prop :=
  (counting e order now).TooLarge none fault ∨ (listing e order now).TooLarge (some page) fault

end Expression

namespace Catalogue

open Selection

variable {c : Catalogue} {plan : Plan} {e : Expression} {order : SortOrder} {page : PageRequest}
  {now : Instant}

theorem matched_eq_nil (hc : c.Invariant) (he : e.CoveredBy e.joins) (now : Instant)
    (hnothing : e.matchesNothing = true) : c.matched e now = [] := by
  apply List.eq_nil_iff_forall_not_mem.mpr
  intro id hid
  obtain ⟨song, -, -, group, hgroup, hne, -⟩ := (mem_matched hc he).mp hid
  exact hne (List.isEmpty_iff.mp (List.all_eq_true.mp hnothing group hgroup))

def slice (c : Catalogue) (e : Expression) (order : SortOrder) (page : PageRequest)
    (now : Instant) : List String :=
  (((listing e order now).ids c).drop page.offset).take page.limit

theorem slice_sublist (page : PageRequest) :
    (c.slice e order page now).Sublist ((listing e order now).ids c) :=
  (List.take_sublist _ _).trans (List.drop_sublist _ _)

/-- A page is refused for what is too large in the expression. -/
def IsRefused (c : Catalogue) (plan : Plan) (e : Expression) (order : SortOrder)
    (page : PageRequest) (now : Instant) : Prop :=
  ∃ fault, e.TooLarge order page now fault ∧
    c.evaluate plan e order page now = .error (.database fault)

/-- What in an expression, or in a song that is listed, is too much for the database. -/
inductive Overload (c : Catalogue) (e : Expression) (order : SortOrder) (page : PageRequest)
    (now : Instant) : DatabaseFault → Prop where
  | query {fault : DatabaseFault} : e.TooLarge order page now fault →
      Overload c e order page now fault
  | counted {i : Interaction} : i ∈ c.interactions → i.userId = e.user →
      i.songId ∈ c.slice e order page now → Interaction.countLimit ≤ i.playCount →
      Overload c e order page now .countTooLarge

theorem evaluate_of_fault? {fault : DatabaseFault} (hsome : e.matchesNothing = false)
    (h : ((counting e order now).fault? plan none c).or
      ((listing e order now).fault? plan (some page) c) = some fault) :
    c.evaluate plan e order page now = .error (.database fault) := by
  simp only [evaluate, hsome, h, Bool.false_eq_true, if_false]

theorem isRefused_of_fault? {fault : DatabaseFault} (hsome : e.matchesNothing = false)
    (h : ((counting e order now).fault? plan none c).or
      ((listing e order now).fault? plan (some page) c) = some fault) :
    c.IsRefused plan e order page now := by
  refine ⟨fault, ?_, evaluate_of_fault? hsome h⟩
  rcases Option.or_eq_some_iff.mp h with hcounting | ⟨-, hlisting⟩
  exacts [.inl (tooLarge_of_fault? hcounting), .inr (tooLarge_of_fault? hlisting)]

theorem refused_or_many (c : Catalogue) (plan : Plan) (order : SortOrder) (page : PageRequest)
    (now : Instant) (hsome : e.matchesNothing = false) :
    c.IsRefused plan e order page now ∨ c.evaluate plan e order page now =
      (Songs.many c e.user (c.slice e order page now)).map fun songs =>
        ⟨songs, (counting e order now).count c, page.page, page.perPage⟩ := by
  cases hfault : ((counting e order now).fault? plan none c).or
      ((listing e order now).fault? plan (some page) c) with
  | some fault => exact .inl (isRefused_of_fault? hsome hfault)
  | none =>
    refine .inr ?_
    simp only [evaluate, hsome, hfault, Bool.false_eq_true, if_false]
    rfl

/-- What counts and lists the same is evaluated alike, where the queries are run on both sides. -/
theorem refused_or_evaluate_eq {d : Catalogue} {f : Expression}
    (hnothing : e.matchesNothing = f.matchesNothing)
    (hcount : (counting e order now).count c = (counting f order now).count d)
    (hmany : Songs.many c e.user (c.slice e order page now) =
      Songs.many d f.user (d.slice f order page now)) (plan : Plan) :
    c.IsRefused plan e order page now ∨ d.IsRefused plan f order page now ∨
      c.evaluate plan e order page now = d.evaluate plan f order page now := by
  cases hsome : e.matchesNothing with
  | true =>
    rw [evaluate, evaluate, if_pos hsome, if_pos (hnothing.symm.trans hsome)]
    exact .inr (.inr rfl)
  | false =>
    refine (refused_or_many c plan order page now hsome).imp_right fun hleft => ?_
    refine (refused_or_many d plan order page now (hnothing.symm.trans hsome)).imp_right
      fun hright => ?_
    rw [hleft, hright, hcount, hmany]

theorem evaluate_eq_many (hc : c.Invariant) (he : e.CoveredBy e.joins) (plan : Plan)
    (order : SortOrder) (page : PageRequest) (now : Instant) :
    c.IsRefused plan e order page now ∨ c.evaluate plan e order page now =
      (Songs.many c e.user (c.slice e order page now)).map fun songs =>
        ⟨songs, (c.matched e now).length, page.page, page.perPage⟩ := by
  cases hnothing : e.matchesNothing with
  | true =>
    have hperm := ids_listing hc he order now
    rw [matched_eq_nil hc he now hnothing] at hperm ⊢
    rw [evaluate, if_pos hnothing, slice, hperm.eq_nil, List.drop_nil, List.take_nil]
    exact .inr rfl
  | false =>
    rw [← count_counting hc he]
    exact refused_or_many c plan order page now hnothing

/-- Evaluation answers with a slice of the matches, or meets what the database cannot do. -/
theorem evaluate_cases (hc : c.Invariant) (he : e.CoveredBy e.joins) (plan : Plan)
    (order : SortOrder) (page : PageRequest) (now : Instant) :
    (∃ songs, c.evaluate plan e order page now = .ok songs ∧
      songs.total = (c.matched e now).length ∧
      songs.songs.map (·.id) = c.slice e order page now) ∨
    ∃ fault, c.evaluate plan e order page now = .error (.database fault) ∧
      Overload c e order page now fault := by
  have hperm := ids_listing hc he order now
  rcases evaluate_eq_many hc he plan order page now with ⟨fault, hlarge, hrefused⟩ | hanswered
  · exact .inr ⟨fault, hrefused, .query hlarge⟩
  · rw [hanswered]
    have hnodup := (slice_sublist page).nodup (hperm.nodup_iff.mpr (nodup_matched hc he))
    rcases Songs.many_cases hc e.user hnodup with hmany |
      ⟨hmany, i, hi, huser, hsong, hlimit⟩ <;> rw [hmany]
    · refine .inl ⟨_, rfl, rfl, Songs.map_id_filterMap_shown fun id hid => ?_⟩
      have hmatched : id ∈ c.matched e now := hperm.mem_iff.mp ((slice_sublist page).subset hid)
      obtain ⟨song, hsong, rfl, -⟩ := (mem_matched hc he).mp hmatched
      exact Songs.exists_shown hc _ hsong
    · exact .inr ⟨_, rfl, .counted hi huser hsong hlimit⟩

theorem compileStrict_single (user : Int) {record : RuleRecord} {p : Predicate}
    (h : record.compile = .ok p) :
    GroupRecord.compileStrict user [⟨none, [record]⟩] = .ok (.ofGroups user [[p]]) := by
  refine GroupRecord.compileStrict_eq_ok.mpr ⟨?_, ?_⟩
  · intro group hgroup other hother
    obtain rfl := List.mem_singleton.mp hgroup
    obtain rfl := List.mem_singleton.mp hother
    exact ⟨p, h⟩
  · simp [GroupRecord.predicates, h]

/-- One rule, that the title of a song is `A`. -/
def titledA : GroupRecord := ⟨none, [⟨none, .named "song.title", "is", [.string "A"]⟩]⟩

def titledExpression (count : Nat) : Expression :=
  .ofGroups 1 (List.replicate count [⟨.title, .is, [.text "A"], .none⟩])

theorem compileStrict_titledA (count : Nat) :
    GroupRecord.compileStrict 1 (List.replicate count titledA) = .ok (titledExpression count) := by
  have hcompile : titledA.rules.mapM RuleRecord.compile = .ok [⟨.title, .is, [.text "A"], .none⟩] :=
    rfl
  refine GroupRecord.compileStrict_eq_ok.mpr ⟨?_, ?_⟩
  · intro group hgroup record hrecord
    obtain ⟨-, rfl⟩ := List.mem_replicate.mp hgroup
    obtain rfl := List.mem_singleton.mp hrecord
    exact ⟨_, rfl⟩
  · rw [List.map_replicate, GroupRecord.predicates, hcompile]
    rfl

end Catalogue

end Setlist
