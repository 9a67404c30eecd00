import AnalyticsBackend.Lib.CountMap
import AnalyticsBackend.Lib.Double
import Mathlib.Algebra.BigOperators.Group.List.Basic
import Mathlib.Algebra.BigOperators.Ring.Finset
import Mathlib.Algebra.Order.BigOperators.Group.List
import Mathlib.Algebra.Order.Ring.Star

/-!
# Sliding windows

`slidingWindow` of `services/securityDetection/util.js`. The events between `start` and `end` are a
list here; the counts go along with it. The numbers are those of any arithmetic: in an exact one what the
loop finds is compared with the windows themselves, and in that of doubles with the exact one.
-/

namespace AnalyticsBackend.Security
open Lib CountMap

variable {E N : Type}

/-- What a window is judged by. -/
structure WindowTotals (N : Type := Int) where
  count : N
  distinct : Nat
  sums : List (String × N)
  deriving DecidableEq, Repr

/-- The `options` of `slidingWindow`; a key that is missing is not counted. -/
structure WindowOptions (E : Type) (N : Type := Int) where
  windowMs : Int
  after : Option Int
  time : E → Int
  weight : E → N := by exact fun _ => 1
  distinct : E → Option String := fun _ => none
  sums : List (String × (E → N)) := []
  qualifies : WindowTotals N → Bool

/-- A window that is reported. -/
structure Window (E : Type) (N : Type := Int) extends WindowTotals N where
  start : Int
  stop : Int
  events : List E

namespace WindowOptions

variable (opts : WindowOptions E N)

/-! ## The loop -/

/-- `count`, `distinctCounts` and `totals`. -/
structure Tally (N : Type) where
  count : N
  distinctCounts : CountMap String
  sums : List (String × N)

def emptyTally [Zero N] : Tally N where
  count := 0
  distinctCounts := ∅
  sums := opts.sums.map fun s => (s.1, 0)

/-- The key of an event that is counted. -/
def key (e : E) : Option String := (opts.distinct e).filter (· ≠ "")

/-- `totals` after one more event, or one less. -/
def moveSums (move : N → N → N) (e : E) (sums : List (String × N)) : List (String × N) :=
  List.zipWith (fun s total => (s.1, move total.2 (s.2 e))) opts.sums sums

def enter [Add N] (e : E) (tally : Tally N) : Tally N where
  count := tally.count + opts.weight e
  distinctCounts :=
    match opts.key e with
    | some key => tally.distinctCounts.increment key
    | none => tally.distinctCounts
  sums := opts.moveSums (· + ·) e tally.sums

def leave [Sub N] (e : E) (tally : Tally N) : Tally N where
  count := tally.count - opts.weight e
  distinctCounts :=
    match opts.key e with
    | some key => tally.distinctCounts.decrement key
    | none => tally.distinctCounts
  sums := opts.moveSums (· - ·) e tally.sums

def Tally.totals (tally : Tally N) : WindowTotals N where
  count := tally.count
  distinct := tally.distinctCounts.keys.length
  sums := tally.sums

/-- The `while` of the loop: the events that leave, the last of all apart. -/
def expire [Sub N] (limit : Int) : List E → Tally N → List E × Tally N
  | e :: next :: rest, tally =>
      if opts.time e ≤ limit then expire limit (next :: rest) (opts.leave e tally)
      else (e :: next :: rest, tally)
  | inside, tally => (inside, tally)

/-- An instant comes after the watermark; without one, every instant does. -/
def later (t : Int) : Bool := opts.after.all (· < t)

/-- What is best after an event, `next` being the one that follows it. -/
def consider [LT N] [DecidableLT N] (endMs : Int) (next : Option E) (inside : List E) (tally : Tally N)
    (best : Option (Window E N)) : Option (Window E N) :=
  if opts.later endMs = false then best
  else if next.any fun e => opts.time e = endMs then best
  else if opts.qualifies tally.totals = false then best
  else if best.all fun w => w.count < tally.count then
    some { tally.totals with start := (inside.head?.map opts.time).getD endMs, stop := endMs, events := inside }
  else best

def slide [Add N] [Sub N] [LT N] [DecidableLT N] :
    List E → List E → Tally N → Option (Window E N) → Option (Window E N)
  | [], _, _, best => best
  | e :: rest, inside, tally, best =>
      let endMs := opts.time e
      let (inside, tally) := opts.expire (endMs - opts.windowMs) (inside ++ [e]) (opts.enter e tally)
      slide rest inside tally (opts.consider endMs rest.head? inside tally best)

end WindowOptions

/-- `slidingWindow`. -/
def slidingWindow [Zero N] [Add N] [Sub N] [LT N] [DecidableLT N] (opts : WindowOptions E N)
    (events : List E) : Option (Window E N) :=
  opts.slide events [] opts.emptyTally none

namespace WindowOptions

variable (opts : WindowOptions E N)

/-! ## Windows -/

/-- The totals of some events. -/
def summarize [Zero N] [Add N] (events : List E) : WindowTotals N where
  count := (events.map opts.weight).sum
  distinct := (events.filterMap opts.key).dedup.length
  sums := opts.sums.map fun s => (s.1, (events.map s.2).sum)

/-- The events in `(end - windowMs, end]`. -/
def windowAt (events : List E) (stop : Int) : List E :=
  events.filter fun e => stop - opts.windowMs < opts.time e && opts.time e ≤ stop

/-- A window that ends at an event after the watermark qualifies. -/
def Qualifying [Zero N] [Add N] (events : List E) (stop : Int) : Prop :=
  opts.later stop = true ∧ (∃ e ∈ events, opts.time e = stop) ∧
    opts.qualifies (opts.summarize (opts.windowAt events stop)) = true

/-- A window as it is reported is the one that ends at an instant. -/
structure Describes [Zero N] [Add N] (events : List E) (w : Window E N) : Prop where
  totals : w.toWindowTotals = opts.summarize w.events
  events : w.events = opts.windowAt events w.stop
  start : w.events.head?.map opts.time = some w.start

/-- Events only leave. -/
theorem expire_sublist [Sub N] (limit : Int) (inside : List E) (tally : Tally N) :
    (opts.expire limit inside tally).1.Sublist inside := by
  fun_induction opts.expire limit inside tally with
  | case1 e next rest tally gone ih => exact ih.trans (List.sublist_cons_self ..)
  | case2 => exact List.Sublist.refl _
  | case3 => exact List.Sublist.refl _

variable {opts}

theorem later_iff {after t : Int} (is : opts.after = some after) : opts.later t = true ↔ after < t := by
  rw [later, is, Option.all_some, decide_eq_true_eq]

/-- The window that ends at the last event of its instant. -/
theorem windowAt_eq {past rest : List E} {e : E}
    (sorted : (past ++ e :: rest).Pairwise fun a b => opts.time a ≤ opts.time b)
    (positive : 0 < opts.windowMs) (last : (rest.head?.any fun e' => opts.time e' = opts.time e) = false) :
    opts.windowAt (past ++ e :: rest) (opts.time e) =
      (past ++ [e]).filter fun e' => opts.time e - opts.windowMs < opts.time e' := by
  obtain ⟨-, after, before⟩ := List.pairwise_append.mp sorted
  obtain ⟨later, sorted⟩ := List.pairwise_cons.mp after
  have beyond : ∀ e' ∈ rest, opts.time e < opts.time e' := by
    cases rest with
    | nil =>
        intro e' mem
        cases mem
    | cons next rest =>
        have ahead : opts.time e < opts.time next := by
          have le := later next (List.mem_cons_self ..)
          have ne : opts.time next ≠ opts.time e := by simpa using last
          omega
        intro e' mem
        rcases List.mem_cons.mp mem with rfl | mem
        · exact ahead
        · exact lt_of_lt_of_le ahead (List.rel_of_pairwise_cons sorted mem)
  have none : rest.filter (fun e' => opts.time e - opts.windowMs < opts.time e' &&
      opts.time e' ≤ opts.time e) = [] := by
    refine List.filter_eq_nil_iff.mpr fun e' mem => ?_
    have far := beyond e' mem
    simp only [Bool.and_eq_true, decide_eq_true_eq]
    omega
  unfold windowAt
  rw [List.filter_append, List.filter_cons, none, List.filter_append]
  congr 1
  · refine List.filter_congr fun e' mem => ?_
    simp [before e' mem e (List.mem_cons_self ..)]
  · simp [positive]

theorem moveSums_map (move : N → N → N) (e : E) (f : (E → N) → N) :
    opts.moveSums move e (opts.sums.map fun s => (s.1, f s.2)) =
      opts.sums.map fun s => (s.1, move (f s.2) (s.2 e)) := by
  unfold moveSums
  rw [List.zipWith_map_right, List.zipWith_self]

section Stop

variable [LT N] [DecidableLT N]

theorem consider_stop {endMs : Int} {next : Option E} {inside : List E} {tally : Tally N}
    {best : Option (Window E N)} {w : Window E N} (is : opts.consider endMs next inside tally best = some w) :
    best = some w ∨ (opts.later endMs = true ∧ w.stop = endMs) := by
  unfold consider at is
  split at is
  · exact .inl is
  · rename_i later
    split at is
    · exact .inl is
    · split at is
      · exact .inl is
      · split at is
        · rw [← Option.some.inj is]
          exact .inr ⟨Bool.of_not_eq_false later, rfl⟩
        · exact .inl is

theorem slide_stop [Add N] [Sub N] {inside rest : List E} {tally : Tally N} {best : Option (Window E N)}
    {w : Window E N} (is : opts.slide rest inside tally best = some w) :
    best = some w ∨ ∃ e ∈ rest, opts.later (opts.time e) = true ∧ w.stop = opts.time e := by
  induction rest generalizing inside tally best with
  | nil => exact .inl is
  | cons e rest ih =>
      rcases ih is with considered | ⟨e', mem, found⟩
      · rcases consider_stop considered with old | ⟨later, stop⟩
        · exact .inl old
        · exact .inr ⟨e, List.mem_cons_self .., later, stop⟩
      · exact .inr ⟨e', List.mem_cons_of_mem _ mem, found⟩

end Stop

section Exact

variable [AddCommGroup N]

/-- The tally of some events. -/
structure Tallies (opts : WindowOptions E N) (tally : Tally N) (events : List E) : Prop where
  count : tally.count = (events.map opts.weight).sum
  distinct : Counts tally.distinctCounts (events.filterMap opts.key)
  sums : tally.sums = opts.sums.map fun s => (s.1, (events.map s.2).sum)

theorem tallies_empty : opts.Tallies opts.emptyTally [] := ⟨rfl, counts_empty, rfl⟩

theorem Tallies.totals {tally : Tally N} {events : List E} (tallies : opts.Tallies tally events) :
    tally.totals = opts.summarize events := by
  unfold Tally.totals summarize
  rw [tallies.count, tallies.distinct.size, tallies.sums]

theorem Tallies.enter {tally : Tally N} {events : List E} (tallies : opts.Tallies tally events) (e : E) :
    opts.Tallies (opts.enter e tally) (events ++ [e]) := by
  refine ⟨?_, ?_, ?_⟩
  · simp [WindowOptions.enter, tallies.count]
  · unfold WindowOptions.enter
    cases key : opts.key e with
    | none => simpa [key] using tallies.distinct
    | some k => simpa [key] using tallies.distinct.increment k
  · unfold WindowOptions.enter
    dsimp only
    rw [tallies.sums, moveSums_map _ e fun f => (events.map f).sum]
    simp

theorem Tallies.leave {tally : Tally N} {e : E} {events : List E}
    (tallies : opts.Tallies tally (e :: events)) : opts.Tallies (opts.leave e tally) events := by
  refine ⟨?_, ?_, ?_⟩
  · simp [WindowOptions.leave, tallies.count]
  · have counts := tallies.distinct
    unfold WindowOptions.leave
    cases key : opts.key e with
    | none => simpa [key] using counts
    | some k =>
        rw [List.filterMap_cons, key] at counts
        exact counts.decrement
  · unfold WindowOptions.leave
    dsimp only
    rw [tallies.sums, moveSums_map _ e fun f => ((e :: events).map f).sum]
    simp

/-- What `expire` leaves: the events after the limit, of events in order of which the last is. -/
theorem expire_spec {limit : Int} {inside : List E} {tally : Tally N} {last : E}
    (tallies : opts.Tallies tally (inside ++ [last])) (above : limit < opts.time last)
    (sorted : (inside ++ [last]).Pairwise fun a b => opts.time a ≤ opts.time b) :
    (opts.expire limit (inside ++ [last]) tally).1 =
        (inside ++ [last]).filter (fun e => limit < opts.time e) ∧
      opts.Tallies (opts.expire limit (inside ++ [last]) tally).2
        (opts.expire limit (inside ++ [last]) tally).1 := by
  induction inside generalizing tally with
  | nil => exact ⟨by simp [expire, above], tallies⟩
  | cons e rest ih =>
      obtain ⟨before, sorted⟩ := List.pairwise_cons.mp sorted
      have step : opts.expire limit (e :: rest ++ [last]) tally =
          if opts.time e ≤ limit then opts.expire limit (rest ++ [last]) (opts.leave e tally)
          else (e :: rest ++ [last], tally) := by
        cases rest <;> rfl
      rw [step]
      split
      · rename_i gone
        rw [List.cons_append, List.filter_cons_of_neg (by simpa using gone)]
        exact ih tallies.leave sorted
      · rename_i stays
        have stays : limit < opts.time e := by omega
        refine ⟨(List.filter_eq_self.mpr fun e' mem => ?_).symm, tallies⟩
        rw [decide_eq_true_eq]
        rcases List.mem_cons.mp mem with rfl | later
        · exact stays
        · exact lt_of_lt_of_le stays (before e' later)

/-! ## What the loop finds -/

variable [LinearOrder N]

/-- Of the windows that end at some of the instants, the best is the first of those with the greatest
count that qualify. -/
def BestOf (opts : WindowOptions E N) (events : List E) (seen : Int → Prop) (best : Option (Window E N)) : Prop :=
  (∀ w, best = some w → seen w.stop ∧ opts.Qualifying events w.stop ∧ opts.Describes events w) ∧
    ∀ t, seen t → opts.Qualifying events t →
      ∃ w, best = some w ∧ (opts.summarize (opts.windowAt events t)).count ≤ w.count

/-- An instant more, which does not qualify. -/
theorem BestOf.skip {events : List E} {seen seen' : Int → Prop} {best : Option (Window E N)}
    (best' : opts.BestOf events seen best) (more : ∀ t, seen t → seen' t)
    (fewer : ∀ t, seen' t → opts.Qualifying events t → seen t) : opts.BestOf events seen' best := by
  constructor
  · intro w is
    obtain ⟨stop, rest⟩ := best'.1 w is
    exact ⟨more _ stop, rest⟩
  · intro t is qualifies
    exact best'.2 t (fewer t is qualifies) qualifies

/-- A window that is described and no worse than the best becomes the best. -/
theorem BestOf.take {events : List E} {seen : Int → Prop} {best : Option (Window E N)} {w : Window E N}
    (best' : opts.BestOf events seen best) (qualifies : opts.Qualifying events w.stop)
    (describes : opts.Describes events w) (better : ∀ old, best = some old → old.count ≤ w.count) :
    opts.BestOf events (fun t => seen t ∨ t = w.stop) (some w) := by
  constructor
  · intro w' is
    rw [← Option.some.inj is]
    exact ⟨.inr rfl, qualifies, describes⟩
  · rintro t (old | rfl) other
    · obtain ⟨w', is, most⟩ := best'.2 t old other
      exact ⟨w, rfl, le_trans most (better w' is)⟩
    · refine ⟨w, rfl, ?_⟩
      rw [← describes.events, ← describes.totals]

/-- A window that counts no more than the best does not change it. -/
theorem BestOf.keep {events : List E} {seen : Int → Prop} {w : Window E N} {stop : Int}
    (best' : opts.BestOf events seen (some w))
    (worse : (opts.summarize (opts.windowAt events stop)).count ≤ w.count) :
    opts.BestOf events (fun t => seen t ∨ t = stop) (some w) := by
  constructor
  · intro w' is
    obtain ⟨seen, rest⟩ := best'.1 w' is
    exact ⟨.inl seen, rest⟩
  · rintro t (old | rfl) qualifies
    · exact best'.2 t old qualifies
    · exact ⟨w, rfl, worse⟩

/-- One event: its window is considered if it is the last of its instant. -/
theorem consider_best {events inside : List E} {e : E} {next : Option E} {tally : Tally N}
    {seen : Int → Prop} {best : Option (Window E N)} (best' : opts.BestOf events seen best)
    (mem : e ∈ events) (tallies : opts.Tallies tally inside) (some : inside ≠ [])
    (whole : (next.any fun e' => opts.time e' = opts.time e) = false →
      opts.windowAt events (opts.time e) = inside) :
    opts.BestOf events (fun t => seen t ∨ (t = opts.time e ∧
        (next.any fun e' => opts.time e' = opts.time e) = false))
      (opts.consider (opts.time e) next inside tally best) := by
  unfold consider
  by_cases last : (next.any fun e' => opts.time e' = opts.time e) = false
  · have inside' := whole last
    simp only [last, and_true, Bool.false_eq_true, if_false]
    split
    · rename_i early
      refine best'.skip (fun t => .inl) ?_
      rintro t (old | rfl) ⟨later, -, -⟩
      · exact old
      · exact absurd later (by rw [early]; exact Bool.false_ne_true)
    · rename_i later
      split
      · rename_i fails
        refine best'.skip (fun t => .inl) ?_
        rintro t (old | rfl) ⟨-, -, qualifies⟩
        · exact old
        · rw [inside', ← tallies.totals, fails] at qualifies
          cases qualifies
      · rename_i holds
        have totals := tallies.totals
        split
        · rename_i more
          refine best'.take ⟨?_, ⟨e, mem, rfl⟩, ?_⟩ ⟨totals, inside'.symm, ?_⟩ ?_
          · simpa using later
          · dsimp only
            rw [inside', ← totals]
            simpa using holds
          · dsimp only
            cases inside with
            | nil => exact absurd rfl some
            | cons first rest => rfl
          · intro old is
            rw [is, Option.all_some, decide_eq_true_eq] at more
            exact le_of_lt more
        · rename_i less
          cases best with
          | none => exact absurd rfl less
          | some w =>
              refine best'.keep ?_
              rw [Option.all_some, decide_eq_true_eq] at less
              rw [inside', ← totals]
              exact not_lt.mp less
  · have more : (next.any fun e' => opts.time e' = opts.time e) = true := by simpa using last
    have same : (if opts.later (opts.time e) = false then best
        else if (next.any fun e' => opts.time e' = opts.time e) = true then best
        else if opts.qualifies tally.totals = false then best
        else if best.all fun w => w.count < tally.count then
          Option.some { tally.totals with start := (inside.head?.map opts.time).getD (opts.time e),
                                          stop := opts.time e, events := inside }
        else best) = best := by
      rw [if_pos more, ite_self]
    rw [same]
    refine best'.skip (fun t => .inl) ?_
    rintro t (old | ⟨-, last'⟩) -
    · exact old
    · exact absurd last' last

/-- The loop from an event on: `past` are the events before it, and those after a bound are inside. -/
theorem slide_best {past inside rest : List E} {tally : Tally N} {best : Option (Window E N)} {bound : Int}
    {seen : Int → Prop} (positive : 0 < opts.windowMs)
    (sorted : (past ++ rest).Pairwise fun a b => opts.time a ≤ opts.time b)
    (is : inside = past.filter fun e => bound < opts.time e)
    (below : ∀ e ∈ rest, bound ≤ opts.time e - opts.windowMs)
    (tallies : opts.Tallies tally inside) (best' : opts.BestOf (past ++ rest) seen best) :
    opts.BestOf (past ++ rest) (fun t => seen t ∨ ∃ e ∈ rest, opts.time e = t)
      (opts.slide rest inside tally best) := by
  induction rest generalizing past inside tally best bound seen with
  | nil =>
      refine best'.skip (fun t => .inl) ?_
      rintro t (old | ⟨e, mem, -⟩) -
      · exact old
      · cases mem
  | cons e rest ih =>
      obtain ⟨ordered, after, before⟩ := List.pairwise_append.mp sorted
      obtain ⟨later, -⟩ := List.pairwise_cons.mp after
      let limit := opts.time e - opts.windowMs
      have low : bound ≤ limit := below e (List.mem_cons_self ..)
      have among : (inside ++ [e]).Pairwise fun a b => opts.time a ≤ opts.time b := by
        rw [is]
        refine List.pairwise_append.mpr ⟨ordered.filter _, List.pairwise_singleton .., ?_⟩
        intro a mem b last
        rw [List.mem_singleton.mp last]
        exact before a (List.mem_of_mem_filter mem) e (List.mem_cons_self ..)
      have above : limit < opts.time e := by dsimp only [limit]; omega
      obtain ⟨left, tallies'⟩ := expire_spec (tallies.enter e) above among
      have left : (opts.expire limit (inside ++ [e]) (opts.enter e tally)).1 =
          (past ++ [e]).filter fun e' => limit < opts.time e' := by
        rw [left, is, List.filter_append, List.filter_filter, List.filter_append]
        congr 1
        refine List.filter_congr fun e' _ => ?_
        by_cases inner : limit < opts.time e'
        · simp [inner, lt_of_le_of_lt low inner]
        · simp [inner]
      have stays : (opts.expire limit (inside ++ [e]) (opts.enter e tally)).1 ≠ [] := by
        rw [left]
        exact List.ne_nil_of_mem (List.mem_filter.mpr
          ⟨List.mem_append_right _ (List.mem_singleton_self e), decide_eq_true above⟩)
      have whole : past ++ [e] ++ rest = past ++ e :: rest := by simp
      have step := @consider_best E N opts _ _ _ _ e rest.head? _ _ _ best'
        (List.mem_append_right _ (List.mem_cons_self ..)) tallies' stays
        fun last => (windowAt_eq sorted positive last).trans left.symm
      rw [← whole] at step
      have next := ih (by rw [whole]; exact sorted) left
        (fun e' mem => by have := later e' mem; dsimp only [limit]; omega) tallies' step
      rw [whole] at next
      unfold slide
      refine next.skip ?_ ?_
      · rintro t ((old | ⟨rfl, -⟩) | ⟨e', mem, rfl⟩)
        · exact .inl old
        · exact .inr ⟨e, List.mem_cons_self .., rfl⟩
        · exact .inr ⟨e', List.mem_cons_of_mem _ mem, rfl⟩
      · rintro t (old | ⟨e', mem, rfl⟩) -
        · exact .inl (.inl old)
        · rcases List.mem_cons.mp mem with rfl | mem
          · -- where the next event shares the instant, it stands for it
            by_cases last : (rest.head?.any fun e'' => opts.time e'' = opts.time e') = false
            · exact .inl (.inr ⟨rfl, last⟩)
            · obtain ⟨next, head, same⟩ := (Option.any_eq_true ..).mp (Bool.of_not_eq_false last)
              exact .inr ⟨next, List.mem_of_mem_head? head, by simpa using same⟩
          · exact .inr ⟨e', mem, rfl⟩

end Exact

end WindowOptions

/-- The window that is found ends at an event after the watermark. -/
theorem stop_slidingWindow [Zero N] [Add N] [Sub N] [LT N] [DecidableLT N] {opts : WindowOptions E N}
    {events : List E} {w : Window E N} (is : slidingWindow opts events = some w) :
    ∃ e ∈ events, opts.later (opts.time e) = true ∧ w.stop = opts.time e :=
  (WindowOptions.slide_stop is).resolve_left (Option.some_ne_none w).symm

section Exact

variable [AddCommGroup N] [LinearOrder N]

/-- What the loop finds of events in order. -/
theorem slidingWindow_bestOf {opts : WindowOptions E N} (positive : 0 < opts.windowMs) {events : List E}
    (sorted : events.Pairwise fun a b => opts.time a ≤ opts.time b) :
    opts.BestOf events (fun t => ∃ e ∈ events, opts.time e = t) (slidingWindow opts events) := by
  have first : opts.BestOf events (fun _ => False) none :=
    ⟨fun w is => absurd is (Option.some_ne_none w).symm, fun _ => False.elim⟩
  have loop : opts.BestOf events (fun t => False ∨ ∃ e ∈ events, opts.time e = t)
      (slidingWindow opts events) := by
    cases events with
    | nil =>
        refine first.skip (fun _ => False.elim) ?_
        rintro t (is | ⟨e, mem, -⟩) -
        · exact is
        · cases mem
    | cons e rest =>
        refine @WindowOptions.slide_best E N opts _ _ [] [] (e :: rest) _ none (opts.time e - opts.windowMs) _
          positive sorted rfl ?_ WindowOptions.tallies_empty first
        intro e' mem
        rcases List.mem_cons.mp mem with rfl | mem
        · exact le_rfl
        · have := List.rel_of_pairwise_cons sorted mem
          omega
  exact loop.skip (fun t is => is.resolve_left id) fun t is _ => .inr is

/-- Of events in order a window is found if and only if one qualifies. -/
theorem slidingWindow_isSome {opts : WindowOptions E N} (positive : 0 < opts.windowMs) {events : List E}
    (sorted : events.Pairwise fun a b => opts.time a ≤ opts.time b) :
    (slidingWindow opts events).isSome = true ↔ ∃ stop, opts.Qualifying events stop := by
  obtain ⟨found, most⟩ := slidingWindow_bestOf positive sorted
  constructor
  · intro some
    obtain ⟨w, is⟩ := Option.isSome_iff_exists.mp some
    exact ⟨w.stop, (found w is).2.1⟩
  · rintro ⟨stop, qualifies⟩
    obtain ⟨w, is, -⟩ := most stop qualifies.2.1 qualifies
    exact Option.isSome_iff_exists.mpr ⟨w, is⟩

/-- In exact arithmetic nothing is found exactly when no window qualifies; and what is found is a
qualifying window of the greatest count, as it is. -/
theorem slidingWindow_greatest {opts : WindowOptions E N} (positive : 0 < opts.windowMs) {events : List E}
    (sorted : events.Pairwise fun a b => opts.time a ≤ opts.time b) :
    (slidingWindow opts events = none ↔ ¬∃ stop, opts.Qualifying events stop) ∧
      ∀ w, slidingWindow opts events = some w →
        opts.Qualifying events w.stop ∧ opts.Describes events w ∧
          ∀ stop, opts.Qualifying events stop → (opts.summarize (opts.windowAt events stop)).count ≤ w.count := by
  obtain ⟨found, most⟩ := slidingWindow_bestOf positive sorted
  constructor
  · rw [← slidingWindow_isSome positive sorted, Option.not_isSome_iff_eq_none]
  · intro w is
    obtain ⟨-, qualifies, describes⟩ := found w is
    refine ⟨qualifies, describes, fun stop other => ?_⟩
    obtain ⟨w', is', greatest⟩ := most stop other.2.1 other
    rw [Option.some.inj (is.symm.trans is')]
    exact greatest

end Exact

/-! ## Doubles -/

/-- The numbers that are named, as rationals. -/
def exactSums (sums : List (String × Double)) : List (String × ℚ) := sums.map fun s => (s.1, s.2.val)

def WindowTotals.exact (totals : WindowTotals Double) : WindowTotals ℚ where
  count := totals.count.val
  distinct := totals.distinct
  sums := exactSums totals.sums

def WindowTotals.rounded (totals : WindowTotals ℚ) : WindowTotals Double where
  count := Double.round totals.count
  distinct := totals.distinct
  sums := totals.sums.map fun s => (s.1, Double.round s.2)

theorem WindowTotals.rounded_exact (totals : WindowTotals Double) : totals.exact.rounded = totals := by
  obtain ⟨count, distinct, sums⟩ := totals
  have same : (exactSums sums).map (fun s => (s.1, Double.round s.2)) = sums := by
    rw [exactSums, List.map_map]
    exact List.map_id'' (fun s => congrArg (s.1, ·) (Double.round_val s.2)) sums
  simp only [exact, rounded, Double.round_val, same]

def Window.exact (w : Window E Double) : Window E ℚ :=
  { w.toWindowTotals.exact with start := w.start, stop := w.stop, events := w.events }

namespace WindowOptions

def Tally.exact (tally : Tally Double) : Tally ℚ where
  count := tally.count.val
  distinctCounts := tally.distinctCounts
  sums := exactSums tally.sums

/-- The same options over rationals: what qualifies is asked of the nearest doubles. -/
def exact (opts : WindowOptions E Double) : WindowOptions E ℚ where
  windowMs := opts.windowMs
  after := opts.after
  time := opts.time
  weight := fun e => (opts.weight e).val
  distinct := opts.distinct
  sums := opts.sums.map fun s => (s.1, fun e => (s.2 e).val)
  qualifies := fun totals => opts.qualifies totals.rounded

/-- Terms that are integers, of which any add up to less than `2 ^ 53`. -/
def SafeTerms (f : E → Double) (events : List E) : Prop :=
  ∃ n : E → ℤ, (∀ e ∈ events, (f e).val = n e) ∧ (events.map fun e => |n e|).sum < 2 ^ 53

/-- The weights and each of the sums are safe. -/
structure Safe (opts : WindowOptions E Double) (events : List E) : Prop where
  weight : SafeTerms opts.weight events
  sums : ∀ s ∈ opts.sums, SafeTerms s.2 events

/-- Some of the terms add up to a safe integer. -/
theorem SafeTerms.sum {f : E → Double} {events some : List E} (safe : SafeTerms f events)
    (sub : some.Sublist events) :
    ∃ n : ℤ, (some.map fun e => (f e).val).sum = n ∧ |n| < 2 ^ 53 := by
  obtain ⟨n, integer, less⟩ := safe
  have fewer : (some.map fun e => |n e|).sum ≤ (events.map fun e => |n e|).sum :=
    (sub.map _).sum_le_sum fun m mem => by
      obtain ⟨e, -, rfl⟩ := List.mem_map.mp mem
      exact abs_nonneg _
  have bound : ∀ events : List E, |(events.map n).sum| ≤ (events.map fun e => |n e|).sum := by
    intro events
    induction events with
    | nil => simp
    | cons e rest ih =>
        simp only [List.map_cons, List.sum_cons]
        exact (abs_add_le _ _).trans (by omega)
  refine ⟨(some.map n).sum, ?_, (bound some).trans_lt (fewer.trans_lt less)⟩
  have cast : ∀ e ∈ some, (f e).val = (n e : ℚ) := fun e mem => integer e (sub.subset mem)
  rw [List.map_congr_left cast, Int.cast_list_sum, List.map_map]
  rfl

variable {opts : WindowOptions E Double} {events inside : List E} {tally : Tally Double}

/-- The totals move as they do in exact arithmetic where each of the new ones is safe. -/
theorem moveSums_exact {move : Double → Double → Double} {move' : ℚ → ℚ → ℚ} {e : E}
    (f : (E → ℚ) → ℚ) {sums : List (String × Double)}
    (is : exactSums sums = opts.exact.sums.map fun s => (s.1, f s.2))
    (moved : ∀ s ∈ opts.sums, ∀ total : Double, total.val = f (fun e => (s.2 e).val) →
      (move total (s.2 e)).val = move' total.val (s.2 e).val) :
    exactSums (opts.moveSums move e sums) = opts.exact.moveSums move' e (exactSums sums) := by
  unfold moveSums exact at *
  dsimp only at *
  generalize opts.sums = terms at *
  induction terms generalizing sums with
  | nil => rfl
  | cons s terms ih =>
      cases sums with
      | nil => cases is
      | cons total sums =>
          obtain ⟨head, rest⟩ := List.cons.inj is
          have value := moved s (List.mem_cons_self ..) total.2 (congrArg Prod.snd head)
          have next := ih rest fun s mem => moved s (List.mem_cons_of_mem _ mem)
          simp only [exactSums, List.map_cons, List.zipWith_cons_cons] at next ⊢
          rw [next, value]

/-- The tally of events among those that are safe, as numbers. -/
theorem enter_exact (safe : opts.Safe events) {e : E} (sub : (inside ++ [e]).Sublist events)
    (tallies : opts.exact.Tallies tally.exact inside) :
    (opts.enter e tally).exact = opts.exact.enter e tally.exact := by
  have count : (opts.enter e tally).count.val = (opts.exact.enter e tally.exact).count := by
    obtain ⟨n, is, less⟩ := safe.weight.sum sub
    refine Double.add_val ?_ less
    rw [← is, List.map_append, List.sum_append]
    exact congrArg₂ _ tallies.count (by simp)
  have sums : exactSums (opts.moveSums (· + ·) e tally.sums) =
      opts.exact.moveSums (· + ·) e tally.exact.sums := by
    refine moveSums_exact (fun term => (inside.map term).sum) tallies.sums fun s mem total is => ?_
    obtain ⟨n, sum, less⟩ := (safe.sums s mem).sum sub
    refine Double.add_val ?_ less
    rw [← sum, List.map_append, List.sum_append, is]
    simp
  exact (Tally.mk.injEq ..).mpr ⟨count, rfl, sums⟩

theorem leave_exact (safe : opts.Safe events) {e : E} (sub : (e :: inside).Sublist events)
    (tallies : opts.exact.Tallies tally.exact (e :: inside)) :
    (opts.leave e tally).exact = opts.exact.leave e tally.exact := by
  have fewer := (List.sublist_cons_self e inside).trans sub
  have count : (opts.leave e tally).count.val = (opts.exact.leave e tally.exact).count := by
    obtain ⟨n, is, less⟩ := safe.weight.sum fewer
    refine Double.sub_val ?_ less
    rw [← is]
    exact sub_eq_of_eq_add' tallies.count
  have sums : exactSums (opts.moveSums (· - ·) e tally.sums) =
      opts.exact.moveSums (· - ·) e tally.exact.sums := by
    refine moveSums_exact (fun term => ((e :: inside).map term).sum) tallies.sums fun s mem total is => ?_
    obtain ⟨n, sum, less⟩ := (safe.sums s mem).sum fewer
    refine Double.sub_val ?_ less
    rw [← sum, is, List.map_cons, List.sum_cons, add_sub_cancel_left]
  exact (Tally.mk.injEq ..).mpr ⟨count, rfl, sums⟩

theorem expire_exact (safe : opts.Safe events) {limit : Int} (sub : inside.Sublist events)
    (tallies : opts.exact.Tallies tally.exact inside) :
    opts.exact.expire limit inside tally.exact =
        ((opts.expire limit inside tally).1, (opts.expire limit inside tally).2.exact) ∧
      opts.exact.Tallies (opts.expire limit inside tally).2.exact (opts.expire limit inside tally).1 := by
  fun_induction opts.expire limit inside tally with
  | case1 e next rest tally gone ih =>
      have less := leave_exact safe sub tallies
      obtain ⟨same, tallies⟩ := ih ((List.sublist_cons_self ..).trans sub) (less ▸ tallies.leave)
      refine ⟨?_, tallies⟩
      rw [← same, less, expire]
      exact if_pos gone
  | case2 e next rest tally stays =>
      refine ⟨?_, tallies⟩
      rw [expire]
      exact if_neg stays
  | case3 inside tally single => exact ⟨expire.eq_2 _ _ _ _ single, tallies⟩

theorem consider_exact (endMs : Int) (next : Option E) (best : Option (Window E Double)) :
    (opts.consider endMs next inside tally best).map Window.exact =
      opts.exact.consider endMs next inside tally.exact (best.map Window.exact) := by
  have totals : opts.exact.qualifies tally.exact.totals = opts.qualifies tally.totals :=
    congrArg opts.qualifies (WindowTotals.rounded_exact tally.totals)
  have more : ((best.map Window.exact).all fun w => w.count < tally.exact.count) =
      best.all fun w => w.count < tally.count := by
    cases best with
    | none => rfl
    | some w =>
        rw [Option.map_some, Option.all_some, Option.all_some]
        exact decide_eq_decide.mpr Iff.rfl
  have later : opts.exact.later endMs = opts.later endMs := rfl
  have time : opts.exact.time = opts.time := rfl
  unfold consider
  rw [totals, more, later, time]
  split
  · rfl
  · split
    · rfl
    · split
      · rfl
      · split
        · rfl
        · rfl

theorem slide_exact {rest : List E} {best : Option (Window E Double)} (safe : opts.Safe events)
    (sub : (inside ++ rest).Sublist events) (tallies : opts.exact.Tallies tally.exact inside) :
    (opts.slide rest inside tally best).map Window.exact =
      opts.exact.slide rest inside tally.exact (best.map Window.exact) := by
  induction rest generalizing inside tally best with
  | nil => rfl
  | cons e rest ih =>
      rw [← List.singleton_append, ← List.append_assoc] at sub
      have more := (List.sublist_append_left ..).trans sub
      have entered := enter_exact safe more tallies
      let limit := opts.time e - opts.windowMs
      obtain ⟨same, tallies⟩ :=
        @expire_exact E opts events _ _ safe limit more (entered ▸ tallies.enter e)
      have fewer := (opts.expire_sublist limit (inside ++ [e]) (opts.enter e tally)).append_right rest
      have left : opts.exact.expire (opts.exact.time e - opts.exact.windowMs) (inside ++ [e])
            (opts.exact.enter e tally.exact) =
          ((opts.expire limit (inside ++ [e]) (opts.enter e tally)).1,
            (opts.expire limit (inside ++ [e]) (opts.enter e tally)).2.exact) := by
        rw [← entered]
        exact same
      rw [slide, slide, left]
      exact (ih (fewer.trans sub) tallies).trans (congrArg _ (consider_exact ..))

end WindowOptions

/-- With safe terms the arithmetic of doubles is exact. -/
theorem slidingWindow_exact {opts : WindowOptions E Double} {events : List E} (safe : opts.Safe events) :
    (slidingWindow opts events).map Window.exact = slidingWindow opts.exact events := by
  have empty : opts.emptyTally.exact = opts.exact.emptyTally := by
    refine (WindowOptions.Tally.mk.injEq ..).mpr ⟨rfl, rfl, ?_⟩
    simp only [WindowOptions.emptyTally, WindowOptions.exact, exactSums, List.map_map]
    rfl
  have loop := @WindowOptions.slide_exact E opts events [] opts.emptyTally events none safe
    (List.Sublist.refl _) (empty ▸ WindowOptions.tallies_empty)
  rw [empty] at loop
  exact loop

/-- **The sliding window.** Where the weights and sums are integers within the safe range, nothing is found
exactly when no window qualifies; and what is found is a qualifying window of the greatest count, as it is. -/
theorem slidingWindow_best {opts : WindowOptions E Double} (positive : 0 < opts.windowMs) {events : List E}
    (sorted : events.Pairwise fun a b => opts.time a ≤ opts.time b) (safe : opts.Safe events) :
    (slidingWindow opts events = none ↔ ¬∃ stop, opts.exact.Qualifying events stop) ∧
      ∀ w, slidingWindow opts events = some w →
        opts.exact.Qualifying events w.stop ∧ opts.exact.Describes events w.exact ∧
          ∀ stop, opts.exact.Qualifying events stop →
            (opts.exact.summarize (opts.exact.windowAt events stop)).count ≤ w.count.val := by
  have same := slidingWindow_exact safe
  obtain ⟨nothing, found⟩ := @slidingWindow_greatest E ℚ _ _ opts.exact positive events sorted
  constructor
  · rw [← nothing, ← same, Option.map_eq_none_iff]
  · intro w is
    rw [is] at same
    exact found w.exact same.symm

/-- Instants with a weight, of which three within ten qualify. -/
def burst : WindowOptions (Int × Int) Double where
  windowMs := 10
  after := none
  time := Prod.fst
  weight := fun e => Double.round e.2
  qualifies := fun w => 3 ≤ w.count.val

example : (slidingWindow burst [(0, 1), (5, 1), (5, 2), (20, 1)]).map (fun w => (w.count.val, w.stop)) =
    some (4, 5) := by
  decide +kernel

theorem slidingWindow_best_burst :
    (slidingWindow burst [(0, 1), (5, 1), (5, 2), (20, 1)] = none ↔
        ¬∃ stop, burst.exact.Qualifying [(0, 1), (5, 1), (5, 2), (20, 1)] stop) ∧
      ∀ w, slidingWindow burst [(0, 1), (5, 1), (5, 2), (20, 1)] = some w →
        burst.exact.Qualifying [(0, 1), (5, 1), (5, 2), (20, 1)] w.stop ∧
          burst.exact.Describes [(0, 1), (5, 1), (5, 2), (20, 1)] w.exact ∧
            ∀ stop, burst.exact.Qualifying [(0, 1), (5, 1), (5, 2), (20, 1)] stop →
              (burst.exact.summarize (burst.exact.windowAt [(0, 1), (5, 1), (5, 2), (20, 1)] stop)).count ≤
                w.count.val :=
  slidingWindow_best (by decide) (by decide)
    ⟨⟨Prod.snd, by decide +kernel, by decide +kernel⟩, fun _ mem => absurd mem List.not_mem_nil⟩

/-- Instants with a weight, of which any window of a second qualifies. -/
def seconds : WindowOptions (Int × Double) Double where
  windowMs := 1000
  after := none
  time := Prod.fst
  weight := Prod.snd
  qualifies := fun _ => true

/-- The doubles nearest to 0.3 and 0.6, the second five seconds later. -/
def tenths : List (Int × Double) := [(0, Double.round (3 / 10)), (5000, Double.round (6 / 10))]

/-- After 0.3 is added and taken away again, 0.5999999999999999 is left of 0.6. -/
theorem rounded_count :
    (∀ e ∈ tenths, 0 ≤ (seconds.weight e).val) ∧
      ∃ w, slidingWindow seconds tenths = some w ∧ ¬seconds.exact.Describes tenths w.exact := by
  have window : (seconds.exact.windowAt tenths 5000).map (fun e => e.2.val) = [5404319552844595 / 2 ^ 53] := by
    decide +kernel
  have found : (slidingWindow seconds tenths).map (fun w => (w.count.val, w.stop)) =
      some (2702159776422297 / 2 ^ 52, 5000) := by
    decide +kernel
  refine ⟨by decide +kernel, ?_⟩
  obtain ⟨w, is, both⟩ := Option.map_eq_some_iff.mp found
  obtain ⟨count, stop⟩ := Prod.mk.inj both
  refine ⟨w, is, fun describes => ?_⟩
  have whole : w.count.val = ((seconds.exact.windowAt tenths w.stop).map fun e => e.2.val).sum :=
    (congrArg WindowTotals.count describes.totals).trans (by rw [describes.events]; rfl)
  rw [stop, window, count] at whole
  norm_num at whole

end AnalyticsBackend.Security
