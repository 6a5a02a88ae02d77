import Catalogue.Http.State
import Catalogue.Proofs.Precedence
import Catalogue.Proofs.Validation

/-!
# How far ahead a deadline may lie

The clock has a latest second. A timeout reaches past it from some instant on, its *horizon*, and a
request that arrives then has no context (`Http.ApiState.callContext?_eq_some_iff`). The horizon of
any timeout that one would ask for is beyond all time, but a timeout is a number of 64 bits without
a sign, and seconds have 63: the larger half of all timeouts has its horizon at the very first
instant. Validation does not look at the size of a timeout. Settings that are accepted stay so with
any other (`Settings.load_withTimeout`).
-/

namespace Catalogue

namespace Settings

/-- The same invocation, with a timeout of its own. -/
def Invocation.withTimeout (invocation : Invocation) (seconds : UInt64) : Invocation :=
  { invocation with overrides := { invocation.overrides with requestTimeout := some seconds } }

/-- The same settings with another timeout. One of zero is none. -/
def withTimeout (settings : Settings) (seconds : UInt64) : Settings :=
  { settings with requestTimeout := if seconds = 0 then none else some seconds }

variable {sources : Sources} {invocation : Invocation} {settings : Settings} {raw : Raw}

theorem ofRaw_withTimeout (h : ofRaw raw = .ok settings) (seconds : UInt64) :
    ofRaw { raw with requestTimeout := some seconds } = .ok (settings.withTimeout seconds) := by
  obtain ⟨hvalid, hgives⟩ := ofRaw_eq_ok_iff.1 h
  refine ofRaw_eq_ok_iff.2
    ⟨{ hvalid with }, { hgives with requestTimeout := fun other => ?_ }⟩
  show (if seconds = 0 then none else some seconds) = some other ↔ other = seconds ∧ other ≠ 0
  by_cases hzero : seconds = 0
  · rw [if_pos hzero, hzero]
    exact iff_of_false nofun fun h => h.2 h.1
  · rw [if_neg hzero, Option.some.injEq]
    constructor
    · rintro rfl
      exact ⟨rfl, hzero⟩
    · rintro ⟨rfl, -⟩
      rfl

theorem handed?_withTimeout (h : handed? sources invocation = some raw) (seconds : UInt64) :
    handed? sources (invocation.withTimeout seconds) =
      some { raw with requestTimeout := some seconds } := by
  obtain ⟨below, hbelow, rfl⟩ := Option.map_eq_some_iff.1 h
  exact Option.map_eq_some_iff.2 ⟨below, hbelow, rfl⟩

/-- Settings are made of the values that are handed on. -/
theorem exists_handed (h : load sources invocation = .ok settings) :
    ∃ raw, handed? sources invocation = some raw ∧ ofRaw raw = .ok settings := by
  cases hhanded : handed? sources invocation with
  | none =>
    have hnone : (sources.tree? invocation.configFile).bind Raw.ofTree? = none :=
      Option.map_eq_none_iff.1 hhanded
    unfold load at h
    rw [hnone] at h
    cases h
  | some raw =>
    rw [load_eq hhanded] at h
    cases hraw : ofRaw raw with
    | ok other =>
      rw [hraw] at h
      cases h
      exact ⟨raw, rfl, hraw⟩
    | error violation =>
      rw [hraw] at h
      cases h

/-- No rule is about the timeout. -/
theorem load_withTimeout (h : load sources invocation = .ok settings) (seconds : UInt64) :
    load sources (invocation.withTimeout seconds) = .ok (settings.withTimeout seconds) := by
  obtain ⟨raw, hhanded, hraw⟩ := exists_handed h
  rw [load_eq (handed?_withTimeout hhanded seconds), ofRaw_withTimeout hraw]
  rfl

/-- The timeout is the one that the sources ask for, ten seconds if they ask for none. -/
theorem requestTimeout_of_ofRaw (h : ofRaw raw = .ok settings) (seconds : UInt64) :
    settings.requestTimeout = some seconds ↔
      seconds = raw.requestTimeout.getD 10 ∧ seconds ≠ 0 :=
  (ofRaw_eq_ok_iff.1 h).2.requestTimeout seconds

end Settings

namespace Http

open Settings

/-- The instant from which on a timeout reaches past the latest second of the clock. -/
def horizon (seconds : UInt64) : Nat := 1000 * (CallContext.latestSecond + 1 - seconds.toNat)

theorem horizon_eq_zero_iff (seconds : UInt64) :
    horizon seconds = 0 ↔ CallContext.latestSecond < seconds.toNat := by
  unfold horizon
  omega

theorem lt_horizon_iff (seconds : UInt64) (now : Nat) :
    now < horizon seconds ↔ (now + seconds.toNat * 1000) / 1000 ≤ CallContext.latestSecond := by
  unfold horizon
  omega

/-- A request has a context until the horizon of the timeout. -/
theorem ApiState.callContext?_eq_some_iff (settings : Settings) (requestId : String) (now : Nat)
    (context : CallContext) :
    (ofSettings settings).callContext? requestId now = some context ↔
      (∀ seconds, settings.requestTimeout = some seconds → now < horizon seconds) ∧
        context = ⟨requestId, settings.requestTimeout.map fun s => now + s.toNat * 1000⟩ := by
  unfold callContext? CallContext.start? ofSettings
  cases settings.requestTimeout with
  | none => simp [eq_comm]
  | some seconds => simp [lt_horizon_iff, eq_comm]

theorem ApiState.callContext?_eq_none (settings : Settings) {seconds : UInt64}
    (h : settings.requestTimeout = some seconds) (hlarge : CallContext.latestSecond < seconds.toNat)
    (requestId : String) (now : Nat) :
    (ofSettings settings).callContext? requestId now = none := by
  rw [Option.eq_none_iff_forall_ne_some]
  intro context hcontext
  have hlt := ((callContext?_eq_some_iff settings requestId now context).1 hcontext).1 seconds h
  rw [(horizon_eq_zero_iff seconds).2 hlarge] at hlt
  exact absurd hlt (Nat.not_lt_zero now)

/-- **Requests have a context until the horizon of the timeout, and no timeout is refused for its
horizon.** Under settings that were accepted:
* the timeout is the one that the sources ask for, whatever it is, but for zero, which is none;
* a request that arrives at some instant has a context if and only if there is no timeout or the
  instant lies before its horizon, and then its deadline is later by just the timeout;
* a timeout of more seconds than the clock can hold leaves every request without a context;
* the same sources are accepted with every other timeout too, and nothing else is changed by it. -/
theorem context_until_horizon {sources : Sources} {invocation : Invocation} {settings : Settings}
    (h : load sources invocation = .ok settings) :
    (∃ raw, handed? sources invocation = some raw ∧ ∀ seconds,
      settings.requestTimeout = some seconds ↔
        seconds = raw.requestTimeout.getD 10 ∧ seconds ≠ 0) ∧
    (∀ requestId now context,
      (ApiState.ofSettings settings).callContext? requestId now = some context ↔
        (∀ seconds, settings.requestTimeout = some seconds → now < horizon seconds) ∧
          context = ⟨requestId, settings.requestTimeout.map fun s => now + s.toNat * 1000⟩) ∧
    (∀ seconds, settings.requestTimeout = some seconds →
      CallContext.latestSecond < seconds.toNat →
        ∀ requestId now, (ApiState.ofSettings settings).callContext? requestId now = none) ∧
    ∀ seconds, load sources (invocation.withTimeout seconds) =
      .ok (settings.withTimeout seconds) := by
  obtain ⟨raw, hhanded, hraw⟩ := exists_handed h
  refine ⟨⟨raw, hhanded, requestTimeout_of_ofRaw hraw⟩,
    ApiState.callContext?_eq_some_iff settings, ?_, load_withTimeout h⟩
  intro seconds htimeout hlarge
  exact ApiState.callContext?_eq_none settings htimeout hlarge

/-- The settings without any source, and the same with the largest timeout. -/
theorem context_until_horizon_without_sources :
    let settings : Settings :=
      { address := .v4 [127, 0, 0, 1] 8080, gracefulShutdown := 30, requestTimeout := some 10
        level := .upTo .info, format := .compact, url := none, maxConnections := 8
        capacity := 10000 }
    load {} {} = .ok settings ∧
      (ApiState.ofSettings settings).callContext? "a" 5 = some ⟨"a", some 10005⟩ ∧
      load {} (Invocation.withTimeout {} 18446744073709551615) =
        .ok (settings.withTimeout 18446744073709551615) := by
  intro settings
  have hload : load {} {} = .ok settings := by decide +kernel
  obtain ⟨-, hcontext, -, hother⟩ := context_until_horizon hload
  refine ⟨hload, (hcontext "a" 5 _).2 ⟨?_, rfl⟩, hother _⟩
  rintro seconds ⟨⟩
  decide

/-- A process that is started with the largest timeout has no context for any request. -/
theorem largest_timeout_never_starts :
    let arguments := ["serve", "--server-request-timeout-seconds", "18446744073709551615"]
    ∃ invocation settings, Invocation.read {} arguments = .ok invocation ∧
      load {} invocation = .ok settings ∧
      ∀ requestId now, (ApiState.ofSettings settings).callContext? requestId now = none := by
  intro arguments
  let invocation : Invocation :=
    { command := some .serve, overrides := { requestTimeout := some 18446744073709551615 } }
  let settings : Settings :=
    { address := .v4 [127, 0, 0, 1] 8080, gracefulShutdown := 30
      requestTimeout := some 18446744073709551615, level := .upTo .info, format := .compact
      url := none, maxConnections := 8, capacity := 10000 }
  have hread : Invocation.read {} arguments = .ok invocation := by decide +kernel
  have hload : load {} invocation = .ok settings := by decide +kernel
  exact ⟨invocation, settings, hread, hload,
    ApiState.callContext?_eq_none settings rfl (by decide)⟩

end Http

end Catalogue
