import AnalyticsBackend.Usage.Balance

/-!
# What a program adds to a counter

`Gains key p g Q`: program `p` writes no counter but `key`, and from `g` units that it added before,
`Q` holds of its result and of what it has added in the end, whatever others do to the counter in
between.
-/

namespace AnalyticsBackend.Usage
open Lib

variable {A B : Type} {key : CounterKey}

/-- What a program adds to one counter, and to no other. -/
def Gains (key : CounterKey) : UsageProg A → Int → (A → Int → Prop) → Prop
  | .done a, g, Q => Q a g
  | .step _ act next, g, Q => ∀ usage, Touches key usage (act usage) ∧
      Gains key (next usage) (g + ((act usage).valueOf key - usage.valueOf key)) Q

theorem Touches.valueOf {usage usage' : UsageDb} (touches : Touches key usage usage')
    {other : CounterKey} (ne : other ≠ key) : usage'.valueOf other = usage.valueOf other := by
  rw [UsageDb.valueOf, touches.counters other ne, UsageDb.valueOf]

theorem Gains.done {a : A} {g : Int} {Q : A → Int → Prop} (holds : Q a g) :
    Gains key (.done a) g Q :=
  holds

theorem Gains.bind {p : UsageProg B} {k : B → UsageProg A} {g : Int} {R : B → Int → Prop}
    {Q : A → Int → Prop} (first : Gains key p g R)
    (second : ∀ b g', R b g' → Gains key (k b) g' Q) : Gains key (p >>= k) g Q := by
  induction p generalizing g with
  | done b => exact second b g first
  | step label act next ih =>
      intro usage
      obtain ⟨touches, rest⟩ := first usage
      exact ⟨touches, ih usage rest⟩

theorem Gains.update {label : UsageLabel} {act : UsageDb → UsageDb} {report : UsageDb → A}
    (gain : A → Int) (touches : ∀ usage, Touches key usage (act usage))
    (adds : ∀ usage, (act usage).valueOf key = usage.valueOf key + gain (report usage)) (g : Int) :
    Gains key (Prog.update label act report) g fun a g' => g' = g + gain a := by
  intro usage
  refine ⟨touches usage, ?_⟩
  change _ = _
  rw [adds]
  omega

theorem Gains.read {label : UsageLabel} (f : UsageDb → A) (g : Int) :
    Gains key (Prog.read label f) g fun _ g' => g' = g := by
  intro usage
  refine ⟨.refl key usage, ?_⟩
  change g + (usage.valueOf key - usage.valueOf key) = g
  omega

theorem gains_upsert {req : LimitedIncrement} (keyed : req.key = key) (g : Int) :
    Gains key (upsertWithinLimit req) g fun value g' => g' = g + gained req value.isSome := by
  subst keyed
  have update : Gains req.key (Prog.update (.writeCounter req.key) req.updateMatching req.updatedValue)
      g fun value g' => g' = g + gained req value.isSome := by
    refine Gains.update _ (touches_updateMatching req) (fun usage => ?_) g
    cases reported : req.updatedValue usage with
    | none => simp [updateMatching_none reported, gained]
    | some value => simp [(updateMatching_some reported).1, gained]
  refine update.bind fun value g' added => ?_
  cases value with
  | some value => exact Gains.done added
  | none =>
      obtain rfl : g' = g := by simpa [gained] using added
      refine Gains.update (fun value : Option Int => gained req value.isSome)
        (touches_insertMissing req) (fun usage => ?_) g'
      cases reported : req.insertedValue usage with
      | none => simp [insertMissing_none reported, gained]
      | some value => simp [(insertMissing_some reported).1, gained]

theorem gains_incrementAttempts {req : LimitedIncrement} (keyed : req.key = key) (attempts : Nat)
    (g : Int) : Gains key (incrementAttempts req attempts) g
      fun result g' => g' = g + gained req result.ok := by
  have refused (current : Option CounterRow) : Gains key (.done (refusedAt current)) g
      fun result g' => g' = g + gained req result.ok :=
    Gains.done (by simp [gained, refusedAt])
  induction attempts with
  | zero =>
      refine (Gains.read (fun usage => usage.counters req.key) g).bind fun current g' same => ?_
      exact same ▸ refused current
  | succ attempts ih =>
      refine (gains_upsert keyed g).bind fun value g' added => ?_
      cases value with
      | some value => exact Gains.done added
      | none =>
          obtain rfl : g' = g := by simpa [gained] using added
          refine (Gains.read (fun usage => usage.counters req.key) g').bind fun current g same => ?_
          subst same
          cases current with
          | none => exact refused none
          | some current =>
              dsimp only
              split
              · exact ih
              · exact refused (some current)

theorem gains_incrementWithinLimit {req : LimitedIncrement} (keyed : req.key = key) (g : Int) :
    Gains key (incrementWithinLimit req) g
      fun result g' => g' = g + gained req (result.toOption.any LimitResult.ok) := by
  have failed (message : String) : Gains key (.done (.error message)) g
      fun (result : Except String LimitResult) g' =>
        g' = g + gained req (result.toOption.any LimitResult.ok) :=
    Gains.done (by simp [gained, Except.toOption])
  unfold incrementWithinLimit
  split
  · exact failed _
  · split
    · exact failed _
    · split
      · exact failed _
      · split
        · refine (Gains.read (fun usage => usage.counters req.key) g).bind fun current g' same => ?_
          exact Gains.done (by simp [same, gained, Except.toOption, refusedAt])
        · refine (gains_incrementAttempts keyed 5 g).bind fun result g' added => ?_
          exact Gains.done (by simpa [Except.toOption] using added)

theorem gains_incrementUnbounded {change : CounterChange} (keyed : change.key = key) (g : Int) :
    Gains key (incrementUnbounded change) g fun _ g' => g' = g + change.delta := by
  subst keyed
  exact Gains.update (fun _ => change.delta) (touches_apply change) (apply_valueOf change) g

theorem gains_checkAndConsume {ent : Entitlement} {req : ConsumeRequest} (keyed : req.key = key)
    (g : Int) : Gains key (checkAndConsume ent req) g
      fun result g' => g' = g + if result.isOk then req.requested else 0 := by
  have failed (e : ApiError) : Gains key (.done (.error e)) g
      fun (result : Except ApiError Consumed) g' =>
        g' = g + if result.isOk then req.requested else 0 :=
    Gains.done (by simp [Except.isOk, Except.toBool])
  have unbounded (soft : Int → Bool) : Gains key
      (incrementUnbounded req.unbounded >>= fun value =>
        Pure.pure (Except.ok { soft := soft value, hard := false, value })) g
      fun (result : Except ApiError Consumed) g' =>
        g' = g + if result.isOk then req.requested else 0 :=
    (gains_incrementUnbounded (show req.unbounded.key = key from keyed) g).bind fun value g' added =>
      Gains.done (by simpa [Except.isOk, Except.toBool, ConsumeRequest.unbounded] using added)
  unfold checkAndConsume
  split
  · exact failed _
  · split
    · exact failed _
    · split
      · exact failed _
      · split
        · exact unbounded fun _ => false
        · rename_i limit _
          split
          · refine (gains_incrementWithinLimit
              (show (req.limited limit.max).key = key from keyed) g).bind fun result g' added => ?_
            cases result with
            | error message =>
                exact Gains.done (by
                  simpa [gained, Except.toOption, Except.isOk, Except.toBool] using added)
            | ok result =>
                dsimp only
                by_cases through : result.ok = true
                · rw [if_pos through]
                  exact Gains.done (by simpa [gained, Except.toOption, Except.isOk, Except.toBool,
                    through, ConsumeRequest.limited] using added)
                · rw [if_neg through]
                  exact Gains.done (by simpa [gained, Except.toOption, Except.isOk, Except.toBool,
                    through] using added)
          · exact unbounded fun value => limit.max < value

end AnalyticsBackend.Usage
