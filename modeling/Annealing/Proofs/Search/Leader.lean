import Annealing.Search
import Annealing.Proofs.Number.Mixed

/-!
# Search — the first of the cheapest

A search compares every new cost with the best one so far and takes it only when it is below.  On a
list of costs this rule picks a *leader*: a place, its cost, and the number of times the lead has
changed (`CostScale.Leads`).

If the costs are ordered, equally good ones allowed (`CostScale.Orders`), the leader is the first of
the cheapest (`Leads.not_below`, `Leads.below_before`), and the lead has changed once for every cost
that is below all costs before it (`Leads.improvements_eq`).

Doubles are ordered as long as all of them are numbers (`doubles_orders`), and so are integers,
truth values and doubles together (`values_orders_of_numbers`), thus integers (`values_orders`).

Whether costs are ordered or not, `renewals` are the places at which the lead changes
(`Leads.renewals_length`).  Longer lists of costs only have more of them (`renewals_append`).
-/

namespace Annealing

/-- Whether a value is a number that is compared with others, as a NaN is not. -/
def Value.isOrdered (k : Value) : Bool := k.number?.any fun n => !n.isNaN

namespace CostScale

variable {κ : Type} (scale : CostScale κ)

/-- Whether the first cost is below the second. -/
def isBelow (a b : κ) : Bool :=
  match scale.less a b with
  | .ok below => below
  | .error _ => false

/-- Costs whose comparisons are those of an order in which some may be equally good. -/
structure Orders (costs : List κ) : Prop where
  asymm : ∀ a ∈ costs, ∀ b ∈ costs, scale.isBelow a b → ¬ scale.isBelow b a
  split : ∀ a ∈ costs, ∀ b ∈ costs, ∀ c ∈ costs,
    scale.isBelow a c → scale.isBelow a b ∨ scale.isBelow b c

/-- Whether the cost at a place is below all costs before it. -/
def isRecord (costs : List κ) (place : Nat) : Bool :=
  costs[place]?.any fun k => (costs.take place).all fun earlier => scale.isBelow k earlier

/-- The number of costs behind the first that are below all costs before them. -/
def improvements (costs : List κ) : Nat :=
  (List.range costs.length).countP fun place => decide (0 < place) && scale.isRecord costs place

/-- The place of the leader of a list of costs, its cost, and how often the lead has changed. -/
inductive Leads : List κ → Nat → κ → Nat → Prop where
  | first (k : κ) : Leads [k] 0 k 0
  | keep {costs : List κ} {place : Nat} {best k : κ} {changes : Nat}
      (h : Leads costs place best changes) (less : scale.less k best = .ok false) :
      Leads (costs ++ [k]) place best changes
  | take {costs : List κ} {place : Nat} {best k : κ} {changes : Nat}
      (h : Leads costs place best changes) (less : scale.less k best = .ok true) :
      Leads (costs ++ [k]) costs.length k (changes + 1)

variable {scale}

theorem isBelow_of_less {a b : κ} {below : Bool} (h : scale.less a b = .ok below) :
    scale.isBelow a b = below := by
  unfold isBelow
  rw [h]

theorem Orders.of_append {costs more : List κ} (h : scale.Orders (costs ++ more)) :
    scale.Orders costs where
  asymm a ha b hb := h.asymm a (List.mem_append_left _ ha) b (List.mem_append_left _ hb)
  split a ha b hb c hc := h.split a (List.mem_append_left _ ha) b (List.mem_append_left _ hb) c
    (List.mem_append_left _ hc)

/-! ### Costs that are ordered -/

theorem doubles_orders {costs : List Float} (numbers : ∀ x ∈ costs, x.isNaN = false) :
    CostScale.doubles.Orders costs where
  asymm a ha b hb h := by
    simp only [isBelow, CostScale.doubles, decide_eq_true_eq] at h ⊢
    exact lt_asymm_of_number (numbers a ha) (numbers b hb) h
  split a ha b hb c hc h := by
    simp only [isBelow, CostScale.doubles, decide_eq_true_eq] at h ⊢
    exact lt_split_of_number (numbers a ha) (numbers b hb) (numbers c hc) h

theorem isBelow_ints {m n : Int} : CostScale.values.isBelow (.int m) (.int n) ↔ m < n := by
  simp [isBelow, CostScale.values, Value.less, Value.relate, Value.number?, Number.compare?,
    Relation.holds, Int.compare_eq_lt]

/-- Values that are numbers are below each other as their places are. -/
theorem isBelow_numbers {a b : Value} {m n : Number} (ha : a.number? = some m)
    (hb : b.number? = some n) (hm : m.isNaN = false) (hn : n.isNaN = false) :
    CostScale.values.isBelow a b ↔ m.place < n.place := by
  have related : Value.relate .less a b = .ok ((m.compare? n).any Relation.less.holds) := by
    cases a <;> cases ha <;> cases b <;> cases hb <;> rfl
  rw [isBelow_of_less (show CostScale.values.less a b = _ from related), ← Number.below_iff hm hn]
  exact any_lt_iff _

/-- Numbers of any kinds are ordered. -/
theorem values_orders_of_numbers {costs : List Value} (numbers : ∀ k ∈ costs, k.isOrdered) :
    CostScale.values.Orders costs := by
  have placed : ∀ k ∈ costs, ∃ n, k.number? = some n ∧ n.isNaN = false := fun k hk => by
    simpa [Value.isOrdered, Option.any_eq_true] using numbers k hk
  constructor
  · intro a ha b hb h
    obtain ⟨m, hm, rm⟩ := placed a ha
    obtain ⟨n, hn, rn⟩ := placed b hb
    rw [isBelow_numbers hm hn rm rn] at h
    rw [isBelow_numbers hn hm rn rm]
    exact lt_asymm h
  · intro a ha b hb c hc h
    obtain ⟨l, hl, rl⟩ := placed a ha
    obtain ⟨m, hm, rm⟩ := placed b hb
    obtain ⟨n, hn, rn⟩ := placed c hc
    rw [isBelow_numbers hl hn rl rn] at h
    rw [isBelow_numbers hl hm rl rm, isBelow_numbers hm hn rm rn]
    exact (lt_or_ge l.place m.place).imp_right fun hml => lt_of_le_of_lt hml h

/-- Integers are ordered, however large they are. -/
theorem values_orders {costs : List Value} (integers : ∀ k ∈ costs, ∃ n, k = .int n) :
    CostScale.values.Orders costs :=
  values_orders_of_numbers fun k hk => by
    obtain ⟨n, rfl⟩ := integers k hk
    rfl

/-! ### The lead -/

/-- A cost at the end of a list makes one improvement more if it is below all others. -/
theorem improvements_append (costs : List κ) (k : κ) :
    scale.improvements (costs ++ [k]) = scale.improvements costs +
      if 0 < costs.length ∧ ∀ earlier ∈ costs, scale.isBelow k earlier then 1 else 0 := by
  have before : ∀ place ∈ List.range costs.length,
      scale.isRecord (costs ++ [k]) place = scale.isRecord costs place := by
    intro place hp
    have hl : place < costs.length := List.mem_range.mp hp
    simp only [isRecord, List.getElem?_append_left hl,
      List.take_append_of_le_length (Nat.le_of_lt hl)]
  have last : scale.isRecord (costs ++ [k]) costs.length = costs.all fun earlier =>
      scale.isBelow k earlier := by
    simp [isRecord]
  have same : (List.range costs.length).countP
      (fun place => decide (0 < place) && scale.isRecord (costs ++ [k]) place)
      = scale.improvements costs := by
    refine List.countP_congr fun place hp => ?_
    rw [before place hp]
  rw [← same, improvements, List.length_append, List.length_singleton, List.range_succ,
    List.countP_append, List.countP_singleton, last]
  simp [List.all_eq_true]

namespace Leads

variable {costs : List κ} {place changes : Nat} {best : κ}

theorem place_lt (h : scale.Leads costs place best changes) : place < costs.length := by
  induction h with
  | first k => exact Nat.zero_lt_one
  | keep _ _ ih => rw [List.length_append]; omega
  | take _ _ _ => rw [List.length_append]; simp

theorem getElem? (h : scale.Leads costs place best changes) : costs[place]? = some best := by
  induction h with
  | first k => rfl
  | keep h _ ih => rw [List.getElem?_append_left h.place_lt, ih]
  | take _ _ _ => simp

theorem mem (h : scale.Leads costs place best changes) : best ∈ costs :=
  List.mem_of_getElem? h.getElem?

/-- No cost is below the leader's. -/
theorem not_below (h : scale.Leads costs place best changes) (ordered : scale.Orders costs) :
    ∀ k ∈ costs, ¬ scale.isBelow k best := by
  induction h with
  | first k =>
      intro j hj hk
      obtain rfl := List.mem_singleton.mp hj
      exact ordered.asymm j hj j hj hk hk
  | @keep costs place best k changes h less ih =>
      intro j hj
      rcases List.mem_append.mp hj with hj | hj
      · exact ih ordered.of_append j hj
      · obtain rfl := List.mem_singleton.mp hj
        rw [isBelow_of_less less]
        simp
  | @take costs place best k changes h less ih =>
      have hk : k ∈ costs ++ [k] := by simp
      have hbest : best ∈ costs ++ [k] := List.mem_append_left _ h.mem
      have below : scale.isBelow k best := by rw [isBelow_of_less less]
      intro j hj hjk
      rcases List.mem_append.mp hj with hj' | hj'
      · rcases ordered.split k hk j hj best hbest below with hkj | hjb
        · exact ordered.asymm k hk j hj hkj hjk
        · exact ih ordered.of_append j hj' hjb
      · obtain rfl := List.mem_singleton.mp hj'
        exact ordered.asymm j hk j hk hjk hjk

/-- A cost below the leader's is below all costs. -/
theorem below_all (h : scale.Leads costs place best changes) {k : κ}
    (ordered : scale.Orders (costs ++ [k])) (below : scale.isBelow k best) :
    ∀ j ∈ costs, scale.isBelow k j := by
  intro j hj
  have hbest : best ∈ costs ++ [k] := List.mem_append_left _ h.mem
  rcases ordered.split k (by simp) j (List.mem_append_left _ hj) best hbest below with hkj | hjb
  · exact hkj
  · exact absurd hjb (h.not_below ordered.of_append j hj)

/-- The leader's cost is below all costs before it. -/
theorem below_before (h : scale.Leads costs place best changes) (ordered : scale.Orders costs) :
    ∀ j ∈ costs.take place, scale.isBelow best j := by
  induction h with
  | first k => simp
  | keep h _ ih =>
      rw [List.take_append_of_le_length (Nat.le_of_lt h.place_lt)]
      exact ih ordered.of_append
  | take h less _ =>
      rw [List.take_left']
      · exact h.below_all ordered (isBelow_of_less less)
      · rfl

/-- The lead has changed once for every improvement. -/
theorem improvements_eq (h : scale.Leads costs place best changes) (ordered : scale.Orders costs) :
    scale.improvements costs = changes := by
  induction h with
  | first k => rfl
  | @keep costs place best k changes h less ih =>
      have stays : ¬ (0 < costs.length ∧ ∀ earlier ∈ costs, scale.isBelow k earlier) := by
        rintro ⟨-, all⟩
        have := all best h.mem
        rw [isBelow_of_less less] at this
        cases this
      rw [improvements_append, if_neg stays, Nat.add_zero, ih ordered.of_append]
  | @take costs place best k changes h less ih =>
      have renewed : 0 < costs.length ∧ ∀ earlier ∈ costs, scale.isBelow k earlier :=
        ⟨Nat.lt_of_le_of_lt (Nat.zero_le _) h.place_lt, h.below_all ordered (isBelow_of_less less)⟩
      rw [improvements_append, if_pos renewed, ih ordered.of_append]

end Leads

/-! ### Where the lead changes -/

variable (scale)

/-- The leading cost of a list behind the cost `best`. -/
def lowestFrom (best : κ) (costs : List κ) : κ :=
  costs.foldl (fun best k => if scale.isBelow k best then k else best) best

/-- The places of a list of costs, counted from `place`, at which the lead over `best` and all costs
before changes. -/
def renewalsFrom (place : Nat) (best : κ) : List κ → List Nat
  | [] => []
  | k :: costs =>
      if scale.isBelow k best then place :: renewalsFrom (place + 1) k costs
      else renewalsFrom (place + 1) best costs

/-- The places of a list of costs at which the lead changes. -/
def renewals : List κ → List Nat
  | [] => []
  | first :: costs => scale.renewalsFrom 1 first costs

variable {scale}

theorem renewalsFrom_append (place : Nat) (best : κ) (costs more : List κ) :
    scale.renewalsFrom place best (costs ++ more) =
      scale.renewalsFrom place best costs ++
        scale.renewalsFrom (place + costs.length) (scale.lowestFrom best costs) more := by
  induction costs generalizing place best with
  | nil => rfl
  | cons k costs ih =>
      have places : place + 1 + costs.length = place + (k :: costs).length := by
        simp only [List.length_cons]; omega
      by_cases h : scale.isBelow k best
      · simp only [List.cons_append, renewalsFrom, lowestFrom, List.foldl_cons, h, if_true, ih,
          places]
      · simp only [List.cons_append, renewalsFrom, lowestFrom, List.foldl_cons, h, if_false, ih,
          places, Bool.false_eq_true]

/-- A longer list of costs has further renewals at most. -/
theorem renewals_append (costs more : List κ) :
    scale.renewals costs <+: scale.renewals (costs ++ more) := by
  cases costs with
  | nil => exact List.nil_prefix
  | cons first costs =>
      rw [List.cons_append, renewals, renewals, renewalsFrom_append]
      exact List.prefix_append _ _

namespace Leads

variable {costs : List κ} {place changes : Nat} {best : κ}

/-- The leader has the leading cost. -/
theorem lowestFrom_eq (h : scale.Leads costs place best changes) :
    ∃ first more, costs = first :: more ∧ scale.lowestFrom first more = best := by
  have concat : ∀ (first k : κ) (more : List κ), scale.lowestFrom first (more ++ [k]) =
      if scale.isBelow k (scale.lowestFrom first more) then k else scale.lowestFrom first more :=
    fun _ _ _ => List.foldl_append
  induction h with
  | first k => exact ⟨k, [], rfl, rfl⟩
  | @keep _ _ _ k _ _ less ih =>
      obtain ⟨first, more, rfl, lowest⟩ := ih
      refine ⟨first, more ++ [k], rfl, ?_⟩
      rw [concat, lowest, if_neg (by rw [isBelow_of_less less]; exact Bool.false_ne_true)]
  | @take _ _ _ k _ _ less ih =>
      obtain ⟨first, more, rfl, lowest⟩ := ih
      refine ⟨first, more ++ [k], rfl, ?_⟩
      rw [concat, lowest, if_pos (isBelow_of_less less)]

/-- A further cost is a renewal if it is below the leader's. -/
theorem renewals_concat (h : scale.Leads costs place best changes) (k : κ) :
    scale.renewals (costs ++ [k]) =
      scale.renewals costs ++ if scale.isBelow k best then [costs.length] else [] := by
  obtain ⟨first, more, rfl, lowest⟩ := h.lowestFrom_eq
  rw [List.cons_append, renewals, renewals, renewalsFrom_append, lowest, List.length_cons,
    Nat.add_comm]
  rfl

/-- There is one renewal for every change of the lead. -/
theorem renewals_length (h : scale.Leads costs place best changes) :
    (scale.renewals costs).length = changes := by
  induction h with
  | first k => rfl
  | keep h less ih =>
      rw [h.renewals_concat, isBelow_of_less less, if_neg Bool.false_ne_true, List.append_nil, ih]
  | take h less ih =>
      rw [h.renewals_concat, isBelow_of_less less, if_pos rfl, List.length_append, ih,
        List.length_singleton]

end Leads

end CostScale

end Annealing
