import AlertConsole.Console.Arguments
import AlertConsole.Proofs.Feed.Polling
import AlertConsole.Proofs.Outcome

/-!
# The interval on the command line

Whatever number is typed as the interval becomes the interval of the feed (`ofArguments_interval`),
and nobody asks whether it is 0. A feed that says it is polling goes on polling with every other one
(`admitted_interval_polls_iff`); with 0 it falls silent and says so all the same
(`interval_zero_is_admitted`).
-/

namespace AlertConsole.Console

open Feed (KeepsPolling)

/-! ## Scanning -/

variable {level : Level} {g : Given}

theorem scan_command {name : String} (h : name ∈ level.commands) (rest : List String) :
    scan level g (name :: rest) = .ok (g, name :: rest) := by
  rw [scan, if_pos h]

/-- An option whose value is an argument of its own is checked later. -/
theorem scan_option {arg value : String} {o : OptionSpec}
    (harg : longOption? arg = some (o.name, none)) (hdashes : arg ≠ "--") (hhelp : o.name ≠ "help")
    (hcommands : arg ∉ level.commands)
    (hfind : level.options.find? (·.name == o.name) = some o) (harity : o.arity ≠ .flag)
    (hvalue : looksLikeOption value = false) (hpending : g.pending = none) (rest : List String) :
    scan level g (arg :: value :: rest) = scan level { g with pending := some (o, value) } rest := by
  have hsettle : g.settle = .ok g := by
    rw [Given.settle, hpending]
  rw [scan, if_neg hcommands, if_neg hdashes, harg]
  split
  · next heq => exact absurd (congrArg Prod.fst (Option.some.inj heq)) hhelp
  · next heq =>
    obtain ⟨rfl, rfl⟩ := Prod.mk.inj (Option.some.inj heq)
    simp only [hfind, if_neg harity, hvalue, hsettle]
    rfl
  · next heq => cases heq

/-! ## Settings -/

theorem looksLikeOption_of_uint64? {value : String} {n : Nat}
    (h : Number.uint64? value.toList = some n) : looksLikeOption value = false := by
  unfold looksLikeOption
  split
  · next heq =>
    rw [heq] at h
    cases h
  · rfl

/-- The settings of a console that is given an interval and nothing else. -/
def intervalConfig (env : Environment) (interval : Nat) : Config :=
  { Config.standard with
    baseUrl := env.url.getD Config.standard.baseUrl
    pollInterval := interval
    sessionFile := some (env.sessionFile.getD defaultSessionFile) }

variable {env : Environment} {value : String} {n : Nat}

theorem configOf_interval (henv : env.sessionFile ≠ some "")
    (h : Number.uint64? value.toList = some n) :
    configOf env ⟨[("interval-ms", value)], [], none⟩ = .ok (intervalConfig env n) := by
  have hfile : env.sessionFile.getD defaultSessionFile ≠ "" := by
    rcases hfile : env.sessionFile with _ | file
    · decide
    · rw [hfile] at henv
      exact fun hempty => henv (congrArg some hempty)
  have hword : Given.word ⟨[("interval-ms", value)], [], none⟩ "interval-ms"
      Config.standard.pollInterval = n := by
    show (Number.uint64? value.toList).getD _ = n
    rw [h, Option.getD_some]
  show (if env.sessionFile.getD defaultSessionFile = "" then _ else _) = _
  rw [if_neg hfile, hword]
  rfl

theorem settle_interval (h : Number.uint64? value.toList = some n) :
    Given.settle ⟨[], [], some (wordOption "interval-ms", value)⟩ =
      .ok ⟨[("interval-ms", value)], [], none⟩ := by
  have haccepts : (wordOption "interval-ms").accepts value = true := by
    show (Number.uint64? value.toList).isSome = true
    rw [h, Option.isSome_some]
  show Given.record ⟨[], [], none⟩ (wordOption "interval-ms") value = _
  rw [Given.record, haccepts]
  rfl

/-- The number that is typed as the interval is the one that the feed is made with. -/
theorem ofArguments_interval (henv : env.sessionFile ≠ some "")
    (h : Number.uint64? value.toList = some n) {name : String} {activity : Activity}
    (hname : name ∈ groupNames (topCommands env.password)) (hhelp : name ≠ "help")
    (hlookup : ((topCommands env.password).lookup name).elim (.error .usage) (· []) = .ok activity) :
    Invocation.ofArguments env ["--interval-ms", value, name] =
      .ok ⟨intervalConfig env n, activity⟩ := by
  have hlong : longOption? "--interval-ms" = some ("interval-ms", none) := by decide +kernel
  have hcommands : "--interval-ms" ∉ groupNames (topCommands env.password) := by
    simp [groupNames, topCommands, groups]
  have hscan : scan ⟨globalOptions, 0, groupNames (topCommands env.password)⟩ .nothing
      ["--interval-ms", value, name] =
        .ok (⟨[], [], some (wordOption "interval-ms", value)⟩, [name]) :=
    (scan_option hlong (by decide) (by decide) hcommands rfl (by decide)
      (looksLikeOption_of_uint64? h) rfl [name]).trans (scan_command hname [])
  rw [Invocation.ofArguments, hscan, ok_bind]
  dsimp only
  split
  · next heq => cases heq
  · next heq => exact absurd (List.cons.inj heq).1 hhelp
  · next heq =>
    obtain ⟨rfl, rfl⟩ := List.cons.inj heq
    rw [hlookup, ok_bind, settle_interval h, ok_bind, configOf_interval henv h]
    rfl

/-- Whatever interval the command line admits is that of the feed, and a feed that says it is
polling goes on polling exactly if the interval is not 0. -/
theorem admitted_interval_polls_iff (henv : env.sessionFile ≠ some "")
    (h : Number.uint64? value.toList = some n) :
    ∃ config,
      Invocation.ofArguments env ["--interval-ms", value, "view"] = .ok ⟨config, .view⟩ ∧
      Invocation.ofArguments env ["--interval-ms", value, "watch"] = .ok ⟨config, .watch .human⟩ ∧
      config.pollInterval = n ∧ (KeepsPolling config.pollInterval ↔ 0 < n) := by
  have hview : "view" ∈ groupNames (topCommands env.password) := by
    simp [groupNames, topCommands]
  have hwatch : "watch" ∈ groupNames (topCommands env.password) := by
    simp [groupNames, topCommands]
  exact ⟨intervalConfig env n, ofArguments_interval henv h hview (by decide) rfl,
    ofArguments_interval henv h hwatch (by decide) rfl, rfl, Feed.keepsPolling_iff n⟩

/-- The greatest interval. -/
theorem admitted_interval_polls_of_greatest :
    ∃ config,
      Invocation.ofArguments ⟨none, none, none⟩ ["--interval-ms", "18446744073709551615", "view"] =
        .ok ⟨config, .view⟩ ∧
      config.pollInterval = 18446744073709551615 ∧ KeepsPolling config.pollInterval := by
  have h : Number.uint64? "18446744073709551615".toList = some 18446744073709551615 := by
    decide +kernel
  obtain ⟨config, hview, -, hinterval, hpolls⟩ :=
    @admitted_interval_polls_iff ⟨none, none, none⟩ _ _ (by decide) h
  exact ⟨config, hview, hinterval, hpolls.2 (by decide)⟩

/-- The interval 0 is admitted, and a feed that was started with it says that it is polling,
although its schedule issues no fetch, however long it is left to run. -/
theorem interval_zero_is_admitted :
    ∃ config,
      Invocation.ofArguments ⟨none, none, none⟩ ["--interval-ms", "0", "view"] =
        .ok ⟨config, .view⟩ ∧
      ¬KeepsPolling config.pollInterval ∧
      ∃ log f, ((Feed.idle config.pollInterval).performAll [.start]).Runs log f ∧
        f.isPolling = true ∧ f.nextTick? = none ∧
        ∀ later log' f', .stop ∉ later → (f.performAll later).Runs log' f' →
          f'.isPolling = true ∧ f.Keeps later log' f' 0 0 0 := by
  have h : Number.uint64? "0".toList = some 0 := by decide +kernel
  have hview : Invocation.ofArguments ⟨none, none, none⟩ ["--interval-ms", "0", "view"] =
      .ok ⟨intervalConfig ⟨none, none, none⟩ 0, .view⟩ :=
    ofArguments_interval (by decide) h (by decide) (by decide) rfl
  refine ⟨_, hview, fun hpolls => ?_, Feed.silent_of_interval_zero⟩
  exact absurd ((Feed.keepsPolling_iff 0).1 hpolls) (by decide)

end AlertConsole.Console
