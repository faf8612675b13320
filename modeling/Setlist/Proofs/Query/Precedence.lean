import Setlist.Proofs.Query.Scanning

/-! # Operators and their operands

What follows an operand decides which of the operators in front take it. The text of a chain
of conjunctions or of alternatives is therefore read link by link, and nothing in parentheses
is drawn into what stands around them.
-/

namespace Setlist

namespace Frame

/-- Nothing in front takes an operand before an operator of this strength does. -/
inductive Fresh (strength : Nat) : List Frame → Prop
  | empty : Fresh strength []
  | opening {rest} : Fresh strength (.opening :: rest)
  | and {left rest} : 1 < strength → Fresh strength (.and left :: rest)
  | or {left rest} : 0 < strength → Fresh strength (.or left :: rest)

namespace Fresh

variable {p q : Nat} {stack : List Frame}

theorem mono (h : Fresh p stack) (hle : p ≤ q) : Fresh q stack := by
  cases h with
  | empty => exact .empty
  | opening => exact .opening
  | and hlt => exact .and (Nat.lt_of_lt_of_le hlt hle)
  | or hlt => exact .or (Nat.lt_of_lt_of_le hlt hle)

theorem reduce_eq (h : Fresh p stack) (term : Term) : reduce p stack term = (stack, term) := by
  cases h with
  | empty => rfl
  | opening => rfl
  | and hlt => exact if_neg (Nat.not_le_of_lt hlt)
  | or hlt => exact if_neg (Nat.not_le_of_lt hlt)

end Fresh

theorem reduce_of_le {p q : Nat} (h : p ≤ q) {stack rest : List Frame} {last term : Term}
    (hreduce : reduce q stack last = (rest, term)) : reduce p stack last = reduce p rest term := by
  induction stack generalizing last with
  | nil =>
    cases hreduce
    rfl
  | cons frame stack ih =>
    rw [reduce] at hreduce
    cases hclose : frame.close last with
    | none =>
      rw [hclose] at hreduce
      cases hreduce
      rfl
    | some whole =>
      rw [hclose] at hreduce
      dsimp only at hreduce
      by_cases hstrong : q ≤ frame.strength
      · rw [if_pos hstrong] at hreduce
        rw [reduce, hclose]
        dsimp only
        rw [if_pos (Nat.le_trans h hstrong)]
        exact ih hreduce
      · rw [if_neg hstrong] at hreduce
        cases hreduce
        rfl

end Frame

namespace Parsing

open Setlist.Frame

theorem run_append (before after : List Token) (parsing : Parsing) :
    run (before ++ after) parsing = (run before parsing).bind (run after) :=
  List.foldlM_append

theorem run_cons (token : Token) (tokens : List Token) (parsing : Parsing) :
    run (token :: tokens) parsing = (step parsing token).bind (run tokens) :=
  List.foldlM_cons

theorem step_after (stack : List Frame) (term : Term) (token : Token) :
    step ⟨stack, .after term⟩ token = after stack term token := rfl

section Operators

-- an operator takes what the stronger ones in front of it have left, and waits for the rest

variable (stack : List Frame) (term : Term)

theorem step_or : step ⟨stack, .after term⟩ .or = some (onto stack term 0 .or) := rfl

theorem step_is : step ⟨stack, .after term⟩ .is = some (onto stack term 3 .is) := rfl

theorem step_sign (sign : Sign) : step ⟨stack, .after term⟩ (.sign sign) =
    some (onto stack term sign.strength (.compare sign)) := rfl

theorem step_like : step ⟨stack, .after term⟩ .like = some (onto stack term 3 (.like false)) := rfl

theorem step_between : step ⟨stack, .after term⟩ .between =
    some (onto stack term 3 .between) := rfl

theorem step_not : step ⟨stack, .after term⟩ .not =
    some ⟨(reduce 3 stack term).1, .unlike (reduce 3 stack term).2⟩ := rfl

end Operators

/-- The word after an operand is a conjunction, unless the lower bound of a range has just been
read. -/
theorem after_and {stack rest : List Frame} {last term : Term} (hfresh : Fresh 1 stack)
    (hreduce : reduce 1 rest last = (stack, term)) :
    after rest last .and = some ⟨.and term :: stack, .operand⟩ := by
  rcases hfront : reduce 2 rest last with ⟨front, right⟩
  have hfurther : reduce 1 front right = (stack, term) :=
    (reduce_of_le (Nat.le_succ 1) hfront).symm.trans hreduce
  rw [after, hfront]
  split
  case h_1 value front low heq =>
    -- an open range would still stand in front of the whole operand
    cases heq
    cases hfurther
    cases hfresh
  case h_2 front right _ heq =>
    cases heq
    rw [onto, hfurther]

/-- Where an operand is due, the tokens are read as this term by any operator up to this
strength that follows. -/
def Reads (strength : Nat) (tokens : List Token) (term : Term) : Prop :=
  ∀ stack, Fresh strength stack → ∃ rest last,
    run tokens ⟨stack, .operand⟩ = some ⟨rest, .after last⟩ ∧
      reduce strength rest last = (stack, term)

namespace Reads

variable {p q : Nat} {a b : List Token} {x y : Term}

theorem mono (h : Reads q a x) (hle : p ≤ q) : Reads p a x := by
  intro stack hfresh
  obtain ⟨rest, last, hrun, hreduce⟩ := h stack (hfresh.mono hle)
  exact ⟨rest, last, hrun, (reduce_of_le hle hreduce).trans (hfresh.reduce_eq x)⟩

theorem and (ha : Reads 1 a x) (hb : Reads 2 b y) : Reads 1 (a ++ .and :: b) (.and x y) := by
  intro stack hfresh
  obtain ⟨rest, last, hrun, hreduce⟩ := ha stack hfresh
  have hand : step ⟨rest, .after last⟩ .and = some ⟨.and x :: stack, .operand⟩ :=
    after_and hfresh hreduce
  obtain ⟨rest', last', hrun', hreduce'⟩ := hb (.and x :: stack) (.and (Nat.lt_succ_self 1))
  refine ⟨rest', last', ?_, ?_⟩
  · rw [run_append, hrun, Option.bind_some, run_cons, hand, Option.bind_some, hrun']
  · rw [reduce_of_le (Nat.le_succ 1) hreduce']
    exact hfresh.reduce_eq _

theorem or (ha : Reads 0 a x) (hb : Reads 1 b y) : Reads 0 (a ++ .or :: b) (.or x y) := by
  intro stack hfresh
  obtain ⟨rest, last, hrun, hreduce⟩ := ha stack hfresh
  have hor : step ⟨rest, .after last⟩ .or = some ⟨.or x :: stack, .operand⟩ := by
    rw [step_or, onto, hreduce]
  obtain ⟨rest', last', hrun', hreduce'⟩ := hb (.or x :: stack) (.or Nat.one_pos)
  refine ⟨rest', last', ?_, ?_⟩
  · rw [run_append, hrun, Option.bind_some, run_cons, hor, Option.bind_some, hrun']
  · rw [reduce_of_le (Nat.zero_le 1) hreduce']
    exact hfresh.reduce_eq _

theorem chain {token : Token} {link : Term → Term → Term}
    (hlink : ∀ {a b x y}, Reads p a x → Reads q b y → Reads p (a ++ token :: b) (link x y))
    {α : Type} {tokens : α → List Token} {term : α → Term} {items : List α}
    (hitems : ∀ item ∈ items, Reads q (tokens item) (term item)) (ha : Reads p a x) :
    Reads p (a ++ items.flatMap (token :: tokens ·)) ((items.map term).foldl link x) := by
  -- what has been read so far is one left operand, so the next link takes it whole
  induction items generalizing a x with
  | nil =>
    rw [List.flatMap_nil, List.append_nil]
    exact ha
  | cons item items ih =>
    have hitem := hitems item List.mem_cons_self
    rw [List.flatMap_cons, ← List.append_assoc]
    exact ih (fun other hother => hitems other (List.mem_cons_of_mem _ hother)) (hlink ha hitem)

end Reads

/-- Wherever an operand is due, the tokens are read as this term, and nothing is left open. -/
def IsOperand (tokens : List Token) (term : Term) : Prop :=
  ∀ stack, run tokens ⟨stack, .operand⟩ = some ⟨stack, .after term⟩

theorem onto_of_fresh {strength : Nat} {stack : List Frame} (h : Fresh strength stack)
    (term : Term) (frame : Term → Frame) :
    onto stack term strength frame = ⟨frame term :: stack, .operand⟩ := by
  rw [onto, h.reduce_eq]

namespace IsOperand

variable {p : Nat} {a b c : List Token} {x y z : Term}

theorem datum (value : Cell) : IsOperand [.datum value] (.datum value) := fun _ => rfl

theorem run_append (h : IsOperand a x) (tokens : List Token) (stack : List Frame) :
    run (a ++ tokens) ⟨stack, .operand⟩ = run tokens ⟨stack, .after x⟩ := by
  rw [Parsing.run_append, h stack, Option.bind_some]

theorem reads (h : IsOperand a x) : Reads p a x :=
  fun stack hfresh => ⟨stack, x, h stack, hfresh.reduce_eq x⟩

theorem enclosed (h : Reads 0 a x) : IsOperand (Token.enclosed a) x := by
  intro stack
  obtain ⟨rest, last, hrun, hreduce⟩ := h (.opening :: stack) .opening
  have hopening : step ⟨stack, .operand⟩ .opening = some ⟨.opening :: stack, .operand⟩ := rfl
  have hclosing : step ⟨rest, .after last⟩ .closing = some ⟨stack, .after x⟩ := by
    rw [step_after, after, hreduce]
  rw [Token.enclosed, run_cons, hopening, Option.bind_some, Parsing.run_append, hrun,
    Option.bind_some, run_cons, hclosing]
  rfl

theorem call (function : String) (h : IsOperand a x) :
    IsOperand (.name function :: Token.enclosed a) (.call function x) := by
  intro stack
  have hopening : run (.name function :: Token.enclosed a) ⟨stack, .operand⟩ =
      run (a ++ [.closing]) ⟨.call function :: stack, .operand⟩ := rfl
  rw [hopening, h.run_append]
  rfl

theorem compare (sign : Sign) (ha : IsOperand a x) (hb : IsOperand b y) :
    Reads 2 (a ++ .sign sign :: b) (.compare sign x y) := by
  intro stack hfresh
  have hstrength : 2 ≤ sign.strength := by cases sign <;> decide
  refine ⟨.compare sign x :: stack, y, ?_, ?_⟩
  · rw [ha.run_append, run_cons, step_sign, onto_of_fresh (hfresh.mono hstrength),
      Option.bind_some, hb]
  · exact (if_pos hstrength).trans (hfresh.reduce_eq _)

theorem is (ha : IsOperand a x) (hb : IsOperand b y) :
    Reads 2 (a ++ .is :: b) (.is x y) := by
  intro stack hfresh
  refine ⟨.is x :: stack, y, ?_, hfresh.reduce_eq _⟩
  rw [ha.run_append, run_cons, step_is, onto_of_fresh (hfresh.mono (Nat.le_succ 2)),
    Option.bind_some, hb]

theorem run_pattern (negated : Bool) (hb : IsOperand b y) (hc : IsOperand c z)
    (stack : List Frame) :
    run (b ++ .escape :: c) ⟨.like negated x :: stack, .operand⟩ =
      some ⟨.escape negated x y :: stack, .after z⟩ := by
  rw [hb.run_append, run_cons]
  exact hc _

theorem like (ha : IsOperand a x) (hb : IsOperand b y) (hc : IsOperand c z) :
    Reads 2 (a ++ .like :: (b ++ .escape :: c)) (.like false x y z) := by
  intro stack hfresh
  refine ⟨.escape false x y :: stack, z, ?_, hfresh.reduce_eq _⟩
  rw [ha.run_append, run_cons, step_like, onto_of_fresh (hfresh.mono (Nat.le_succ 2)),
    Option.bind_some, hb.run_pattern false hc]

theorem unlike (ha : IsOperand a x) (hb : IsOperand b y) (hc : IsOperand c z) :
    Reads 2 (a ++ .not :: .like :: (b ++ .escape :: c)) (.like true x y z) := by
  intro stack hfresh
  refine ⟨.escape true x y :: stack, z, ?_, hfresh.reduce_eq _⟩
  rw [ha.run_append, run_cons, step_not, (hfresh.mono (Nat.le_succ 2)).reduce_eq]
  exact hb.run_pattern true hc stack

/-- The first conjunction after a `BETWEEN` parts its bounds. -/
theorem between (ha : IsOperand a x) (hb : IsOperand b y) (hc : IsOperand c z) :
    Reads 2 (a ++ .between :: (b ++ .and :: c)) (.between x y z) := by
  intro stack hfresh
  refine ⟨.upTo x y :: stack, z, ?_, hfresh.reduce_eq _⟩
  rw [ha.run_append, run_cons, step_between, onto_of_fresh (hfresh.mono (Nat.le_succ 2)),
    Option.bind_some, hb.run_append, run_cons]
  exact hc _

theorem not (h : IsOperand a x) : Reads 2 (.not :: a) (.not x) :=
  fun stack hfresh => ⟨.not :: stack, x, h _, hfresh.reduce_eq _⟩

end IsOperand

end Parsing

end Setlist
