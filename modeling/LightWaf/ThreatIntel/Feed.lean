import LightWaf.Rust.HashMap
import LightWaf.Rust.Net

/-!
# The reputation feed

The embedding of `run_cycle` of the feed driver with `resolve_writes` and
`apply_snapshot` of the store.  A cycle merges what the sources that answered
list, the strongest verdict for each address, and writes it over what is
stored.  A source that fails lists nothing; the verdicts it gave before are
held only by the time to live of their entries, and by no one against a weaker
verdict of another source.
-/

namespace LightWaf.ThreatIntel

open LightWaf.Rust

/-! ## Verdicts -/

/-- `Reputation`. -/
inductive Reputation
  | unknown
  | suspicious
  | malicious
deriving DecidableEq, Repr

namespace Reputation

/-- `Reputation::as_wire`. -/
def asWire : Reputation → Option String
  | malicious => some "malicious"
  | suspicious => some "suspicious"
  | unknown => none

/-- `Reputation::from_wire`. -/
def fromWire (wire : String) : Reputation :=
  if wire = "malicious" then malicious
  else if wire = "suspicious" then suspicious
  else unknown

/-- `Reputation::rank`. -/
def rank : Reputation → Nat
  | unknown => 0
  | suspicious => 1
  | malicious => 2

/-- What is written for a verdict is read back as that verdict. -/
theorem fromWire_of_asWire
    {verdict : Reputation} {wire : String}
    (encoded : verdict.asWire = some wire) :
    fromWire wire = verdict := by
  cases verdict with
  | unknown => cases encoded
  | suspicious =>
      cases encoded
      decide
  | malicious =>
      cases encoded
      decide

theorem asWire_eq_none_iff {verdict : Reputation} :
    verdict.asWire = none ↔ verdict = unknown := by
  cases verdict <;> simp [asWire]

/-- The stronger of two verdicts, the first of two equal ones. -/
def stronger (slot verdict : Reputation) : Reputation :=
  if verdict.rank > slot.rank then verdict else slot

end Reputation

/-- An entry of a source. -/
abbrev Entry := IpAddr × Reputation

/-- `FeedError`. -/
inductive FeedError
  | io (message : Text)
  | http (message : Text)
  | config (message : Text)

/-! ## Configuration -/

/-- The nanoseconds of a second. -/
def second : Nat :=
  1000000000

/-- `FeedConfig`, with durations in nanoseconds. -/
structure FeedConfig where
  refreshInterval : Nat
  entryTtl : Nat
  lockTtl : Nat

/-- What `[enterprise.reputation.feed]` says of the times of the feed. -/
structure FeedSection where
  refreshIntervalSecs : Nat := 300
  entryTtlSecs : Option Nat := none
  lockTtlSecs : Nat := 90

/-- `FeedSection::to_config`. -/
def FeedSection.toConfig (feed : FeedSection) : FeedConfig :=
  let refresh := max feed.refreshIntervalSecs 1 * second
  { refreshInterval := refresh
    entryTtl :=
      match feed.entryTtlSecs with
      | some seconds => max seconds 1 * second
      | none => refresh * 3
    lockTtl := max feed.lockTtlSecs 1 * second }

/-- The time to live that `apply_snapshot` gives an entry. -/
def appliedTtl (ttl : Nat) : Nat :=
  max (ttl / second) 1 * second

/-- The configured time to live is a whole number of seconds. -/
theorem appliedTtl_toConfig (feed : FeedSection) :
    appliedTtl feed.toConfig.entryTtl = feed.toConfig.entryTtl := by
  have whole : ∃ seconds, feed.toConfig.entryTtl = max seconds 1 * second := by
    rw [FeedSection.toConfig]
    cases feed.entryTtlSecs with
    | some seconds => exact ⟨seconds, rfl⟩
    | none =>
        refine ⟨max feed.refreshIntervalSecs 1 * 3, ?_⟩
        simp only [second]
        omega
  obtain ⟨seconds, whole⟩ := whole
  have positive : 0 < second := by decide
  rw [whole, appliedTtl, Nat.mul_div_cancel _ positive,
    max_eq_left (le_max_right seconds 1)]

/-! ## A snapshot -/

/-- The strongest verdict for each address of `resolve_writes`. -/
def strongest (entries : List Entry) : HashMap IpAddr Reputation :=
  entries.foldl
    (fun map entry =>
      map.insert entry.1
        (((map.get entry.1).getD .unknown).stronger entry.2))
    .empty

/--
`resolve_writes`.  The key of an address is `rep:` and the canonical text of
the address, one for each address.
-/
def resolveWrites (entries : List Entry) : List (IpAddr × String) :=
  (strongest entries).entries.filterMap fun entry =>
    entry.2.asWire.map fun wire => (entry.1, wire)

/-- The strongest verdict of an address among some entries. -/
def listed (ip : IpAddr) (entries : List Entry) : Reputation :=
  entries.foldl
    (fun slot entry => if entry.1 = ip then slot.stronger entry.2 else slot)
    .unknown

theorem strongest_concat (entries : List Entry) (entry : Entry) :
    strongest (entries ++ [entry]) =
      (strongest entries).insert entry.1
        ((((strongest entries).get entry.1).getD .unknown).stronger
          entry.2) := by
  rw [strongest, List.foldl_append]
  rfl

theorem listed_concat (ip : IpAddr) (entries : List Entry) (entry : Entry) :
    listed ip (entries ++ [entry]) =
      if entry.1 = ip then (listed ip entries).stronger entry.2
      else listed ip entries := by
  rw [listed, List.foldl_append]
  rfl

/-- The map holds the strongest verdict of each address. -/
theorem getD_strongest (ip : IpAddr) (entries : List Entry) :
    ((strongest entries).get ip).getD .unknown = listed ip entries := by
  induction entries using List.reverseRecOn with
  | nil => rfl
  | append_singleton entries entry induction =>
      rw [strongest_concat, listed_concat, HashMap.get_insert]
      by_cases same : ip = entry.1
      · rw [if_pos same, if_pos same.symm, Option.getD_some, ← same,
          induction]
      · rw [if_neg same, if_neg (Ne.symm same), induction]

/-- What is written is the strongest verdict of an address. -/
theorem mem_resolveWrites
    {entries : List Entry} {ip : IpAddr} {wire : String} :
    (ip, wire) ∈ resolveWrites entries ↔
      (listed ip entries).asWire = some wire := by
  rw [← getD_strongest, resolveWrites, List.mem_filterMap]
  constructor
  · rintro ⟨⟨other, verdict⟩, member, encoded⟩
    obtain ⟨wire', encoded, same⟩ := Option.map_eq_some_iff.mp encoded
    cases same
    rw [HashMap.get_eq_some_iff.mpr member]
    exact encoded
  · intro encoded
    cases stored : (strongest entries).get ip with
    | none =>
        rw [stored] at encoded
        cases encoded
    | some verdict =>
        rw [stored] at encoded
        refine ⟨(ip, verdict), HashMap.get_eq_some_iff.mp stored, ?_⟩
        rw [Option.getD_some] at encoded
        rw [encoded]
        rfl

/-- The addresses of the store, each with a wire value and its expiry. -/
abbrev RepStore := HashMap IpAddr (String × Nat)

/--
`apply_snapshot` at a time.  The pipeline is not atomic: when it fails, some
of its writes may have been carried out.
-/
def applySnapshot (delivered : IpAddr → Bool) (now ttl : Nat)
    (entries : List Entry) (store : RepStore) : RepStore :=
  (resolveWrites entries).foldl
    (fun store write =>
      if delivered write.1 then
        store.insert write.1 (write.2, now + appliedTtl ttl)
      else store)
    store

theorem get_foldl_writes
    {delivered : IpAddr → Bool} {expiry : Nat} {ip : IpAddr} {wire : String}
    (writes : List (IpAddr × String)) (store : RepStore)
    (agree : ∀ other, (ip, other) ∈ writes → other = wire) :
    (writes.foldl
      (fun store write =>
        if delivered write.1 then store.insert write.1 (write.2, expiry)
        else store)
      store).get ip =
      if delivered ip ∧ (ip, wire) ∈ writes then some (wire, expiry)
      else store.get ip := by
  induction writes generalizing store with
  | nil => simp
  | cons write rest induction =>
      rw [List.foldl_cons, induction _ fun other member =>
        agree other (List.mem_cons_of_mem _ member)]
      obtain ⟨target, value⟩ := write
      by_cases same : ip = target
      · subst same
        have value : value = wire := agree value List.mem_cons_self
        subst value
        cases sent : delivered ip with
        | false => simp
        | true => simp
      · cases sent : delivered target with
        | false => simp [same]
        | true => simp [same, HashMap.get_insert_of_ne _ _ same]

/-- A snapshot replaces what is stored for an address that it lists. -/
theorem get_applySnapshot
    (delivered : IpAddr → Bool) (now ttl : Nat) (entries : List Entry)
    (store : RepStore) (ip : IpAddr) :
    (applySnapshot delivered now ttl entries store).get ip =
      if delivered ip then
        (((listed ip entries).asWire.map fun wire =>
          (wire, now + appliedTtl ttl)).or (store.get ip))
      else store.get ip := by
  cases encoded : (listed ip entries).asWire with
  | none =>
      have absent : ∀ wire, (ip, wire) ∉ resolveWrites entries := by
        intro wire member
        rw [mem_resolveWrites, encoded] at member
        cases member
      have agree : ∀ other, (ip, other) ∈ resolveWrites entries →
          other = "" := fun other member => absurd member (absent other)
      rw [applySnapshot, get_foldl_writes _ _ agree,
        if_neg fun both => absent _ both.2]
      simp
  | some wire =>
      have member : (ip, wire) ∈ resolveWrites entries :=
        mem_resolveWrites.mpr encoded
      have agree : ∀ other, (ip, other) ∈ resolveWrites entries →
          other = wire := by
        intro other member
        rw [mem_resolveWrites, encoded] at member
        exact (Option.some.inj member).symm
      rw [applySnapshot, get_foldl_writes _ _ agree]
      simp [member]

/-! ## Cycles -/

/--
What happens in one `run_cycle`: whether the lock is acquired, what each
source returns, how long after the previous cycle the snapshot is written, and
which of its writes are carried out.
-/
structure Cycle (ι : Type) where
  acquired : Bool
  fetches : List (ι × Except FeedError (List Entry))
  elapsed : Nat
  delivered : IpAddr → Bool

/-- The time and the store. -/
structure FeedState where
  now : Nat
  reps : RepStore

/-- `RedisStore::reputation` at the time of the state. -/
def FeedState.reputation (state : FeedState) (ip : IpAddr) : Reputation :=
  match state.reps.get ip with
  | some (wire, expiry) =>
      if state.now < expiry then .fromWire wire else .unknown
  | none => .unknown

section Cycles

variable {ι : Type}

namespace Cycle

/-- The entries of the sources that answer. -/
def entries (cycle : Cycle ι) : List Entry :=
  cycle.fetches.flatMap fun fetch =>
    match fetch.2 with
    | .ok entries => entries
    | .error _ => []

/-- The verdict that a cycle writes for an address, if not `unknown`. -/
def verdict (cycle : Cycle ι) (ip : IpAddr) : Reputation :=
  if cycle.acquired ∧ cycle.delivered ip then listed ip cycle.entries
  else .unknown

/-- The cycle stores a verdict that a source lists. -/
def Stores (cycle : Cycle ι) (source : ι) (ip : IpAddr)
    (verdict : Reputation) : Prop :=
  (∃ entries, (source, .ok entries) ∈ cycle.fetches ∧
    (ip, verdict) ∈ entries) ∧
  verdict ≠ .unknown ∧ cycle.verdict ip = verdict

/-- The fetch of a source fails. -/
def Fails (cycle : Cycle ι) (source : ι) : Prop :=
  cycle.acquired = true ∧ ∃ error, (source, .error error) ∈ cycle.fetches

end Cycle

/-- `run_cycle`; a node that does not get the lock does nothing. -/
def runCycle (config : FeedConfig) (state : FeedState) (cycle : Cycle ι) :
    FeedState :=
  let now := state.now + cycle.elapsed
  if cycle.acquired then
    { now := now
      reps := applySnapshot cycle.delivered now config.entryTtl cycle.entries
        state.reps }
  else { state with now := now }

/-- The cycles of the nodes, one after the other. -/
def runCycles (config : FeedConfig) (state : FeedState)
    (cycles : List (Cycle ι)) : FeedState :=
  cycles.foldl (runCycle config) state

theorem runCycles_concat
    (config : FeedConfig) (state : FeedState) (cycles : List (Cycle ι))
    (cycle : Cycle ι) :
    runCycles config state (cycles ++ [cycle]) =
      runCycle config (runCycles config state cycles) cycle :=
  List.foldl_concat _ _ _ _

@[simp]
theorem now_runCycle
    (config : FeedConfig) (state : FeedState) (cycle : Cycle ι) :
    (runCycle config state cycle).now = state.now + cycle.elapsed := by
  rw [runCycle]
  split <;> rfl

/-- A cycle replaces what is stored for an address that it lists. -/
theorem get_runCycle
    (config : FeedConfig) (state : FeedState) (cycle : Cycle ι)
    (ip : IpAddr) :
    (runCycle config state cycle).reps.get ip =
      (((cycle.verdict ip).asWire.map fun wire =>
        (wire, state.now + cycle.elapsed + appliedTtl config.entryTtl)).or
          (state.reps.get ip)) := by
  rw [runCycle, Cycle.verdict]
  cases cycle.acquired with
  | false => simp [Reputation.asWire]
  | true =>
      simp only [if_true, true_and, get_applySnapshot]
      cases cycle.delivered ip with
      | false => simp [Reputation.asWire]
      | true => simp

/--
The verdict of the last of some cycles in which a source that answers lists
the address.
-/
def lastListed (ip : IpAddr) (cycles : List (Cycle ι)) : Option Reputation :=
  cycles.foldl
    (fun last cycle =>
      if cycle.verdict ip = .unknown then last else some (cycle.verdict ip))
    none

theorem lastListed_concat
    (ip : IpAddr) (cycles : List (Cycle ι)) (cycle : Cycle ι) :
    lastListed ip (cycles ++ [cycle]) =
      if cycle.verdict ip = .unknown then lastListed ip cycles
      else some (cycle.verdict ip) := by
  rw [lastListed, List.foldl_concat]
  rfl

/-- An address with an entry for a verdict that lives for a while. -/
def FeedState.Holds (state : FeedState) (ip : IpAddr) (verdict : Reputation)
    (deadline : Nat) : Prop :=
  ∃ wire expiry, state.reps.get ip = some (wire, expiry) ∧
    Reputation.fromWire wire = verdict ∧ deadline ≤ expiry

theorem FeedState.Holds.reputation
    {state : FeedState} {ip : IpAddr} {verdict : Reputation} {deadline : Nat}
    (holds : state.Holds ip verdict deadline) (alive : state.now < deadline) :
    state.reputation ip = verdict := by
  obtain ⟨wire, expiry, stored, decoded, later⟩ := holds
  rw [FeedState.reputation, stored]
  exact (if_pos (alive.trans_le later)).trans decoded

/-- A cycle that lists an address stores its verdict there. -/
theorem holds_of_verdict
    (config : FeedConfig) (state : FeedState) {cycle : Cycle ι} {ip : IpAddr}
    (known : cycle.verdict ip ≠ .unknown) :
    (runCycle config state cycle).Holds ip (cycle.verdict ip)
      ((runCycle config state cycle).now + appliedTtl config.entryTtl) := by
  cases encoded : (cycle.verdict ip).asWire with
  | none => exact absurd (Reputation.asWire_eq_none_iff.mp encoded) known
  | some wire =>
      refine ⟨wire, _, ?_, Reputation.fromWire_of_asWire encoded, le_rfl⟩
      rw [get_runCycle, encoded, now_runCycle]
      rfl

/-- A stored verdict is replaced by what the cycles list last. -/
theorem holds_runCycles
    {config : FeedConfig} {state : FeedState} {ip : IpAddr}
    {verdict : Reputation}
    (holds : state.Holds ip verdict
      (state.now + appliedTtl config.entryTtl))
    (cycles : List (Cycle ι)) :
    state.now ≤ (runCycles config state cycles).now ∧
      (runCycles config state cycles).Holds ip
        ((lastListed ip cycles).getD verdict)
        (state.now + appliedTtl config.entryTtl) := by
  induction cycles using List.reverseRecOn with
  | nil => exact ⟨le_rfl, holds⟩
  | append_singleton cycles cycle induction =>
      obtain ⟨later, held⟩ := induction
      rw [runCycles_concat, lastListed_concat]
      have now := now_runCycle config (runCycles config state cycles) cycle
      refine ⟨by omega, ?_⟩
      by_cases known : cycle.verdict ip = .unknown
      · obtain ⟨wire, expiry, stored, rest⟩ := held
        rw [if_pos known]
        refine ⟨wire, expiry, ?_, rest⟩
        rw [get_runCycle, known, stored]
        rfl
      · rw [if_neg known]
        obtain ⟨wire, expiry, stored, decoded, alive⟩ :=
          holds_of_verdict config (runCycles config state cycles) known
        exact ⟨wire, expiry, stored, decoded, by omega⟩

/-! ## A failing source -/

/--
A verdict that a source lists is stored, and some cycles later, within the
time to live, the fetch of the source fails.
-/
def FailsAfter (config : FeedConfig) (state : FeedState)
    (cycles : List (Cycle ι)) (written : FeedState)
    (later : List (Cycle ι)) (ip : IpAddr) (verdict : Reputation) : Prop :=
  ∃ before stored between failing after source,
    cycles = before ++ stored :: (between ++ failing :: after) ∧
    stored.Stores source ip verdict ∧ failing.Fails source ∧
    written = runCycles config state (before ++ [stored]) ∧
    later = between ++ [failing] ∧
    (runCycles config written later).now < written.now + config.entryTtl

/-- A source that fails does not weaken a verdict in force. -/
def KeepsVerdicts (config : FeedConfig) (state : FeedState)
    (cycles : List (Cycle ι)) : Prop :=
  ∀ written later ip verdict,
    FailsAfter config state cycles written later ip verdict →
    verdict.rank ≤ ((runCycles config written later).reputation ip).rank

/--
The sources that answer last about an address do not list it more weakly than
the source that fails did.
-/
def ListsNoWeaker (config : FeedConfig) (state : FeedState)
    (cycles : List (Cycle ι)) : Prop :=
  ∀ written later ip verdict,
    FailsAfter config state cycles written later ip verdict →
    ∀ last, lastListed ip later = some last → verdict.rank ≤ last.rank

/--
What is stored when a source fails is the last verdict of the sources that
answered, or that of the failing source if no other lists the address.
-/
theorem reputation_of_failsAfter
    {feed : FeedSection} {state written : FeedState}
    {cycles later : List (Cycle ι)} {ip : IpAddr} {verdict : Reputation}
    (fails : FailsAfter feed.toConfig state cycles written later ip
      verdict) :
    (runCycles feed.toConfig written later).reputation ip =
      (lastListed ip later).getD verdict := by
  obtain ⟨before, stored, between, failing, after, source, -, stores, -,
    rfl, rfl, alive⟩ := fails
  obtain ⟨-, known, listed⟩ := stores
  have holds := holds_of_verdict feed.toConfig
    (runCycles feed.toConfig state before) (listed ▸ known)
  rw [listed, ← runCycles_concat] at holds
  apply (holds_runCycles holds (between ++ [failing])).2.reputation
  rw [appliedTtl_toConfig]
  exact alive

/--
Verdicts in force survive the failures of their sources exactly when the
sources that answer do not list their addresses more weakly.
-/
theorem keepsVerdicts_iff
    (feed : FeedSection) (state : FeedState) (cycles : List (Cycle ι)) :
    KeepsVerdicts feed.toConfig state cycles ↔
      ListsNoWeaker feed.toConfig state cycles := by
  constructor
  · intro keeps written later ip verdict fails last found
    have kept := keeps written later ip verdict fails
    rw [reputation_of_failsAfter fails, found] at kept
    exact kept
  · intro no_weaker written later ip verdict fails
    rw [reputation_of_failsAfter fails]
    cases found : lastListed ip later with
    | none => exact le_rfl
    | some last => exact no_weaker written later ip verdict fails last found

end Cycles

/-- An address that one source blocks and another only suspects. -/
def offender : IpAddr :=
  .v4 0x01020304

/-- The first source answers and lists the address; then it times out. -/
def outage : List (Cycle Bool) :=
  [{ acquired := true
     fetches := [(true, .ok [(offender, .malicious)]),
       (false, .ok [(offender, .suspicious)])]
     elapsed := 0
     delivered := fun _ => true },
   { acquired := true
     fetches := [(true, .error (.http [])),
       (false, .ok [(offender, .suspicious)])]
     elapsed := 300 * second
     delivered := fun _ => true }]

theorem not_keepsVerdicts_outage :
    ¬ KeepsVerdicts ({} : FeedSection).toConfig ⟨0, .empty⟩ outage := by
  intro keeps
  obtain ⟨stored, failing, split⟩ :
      ∃ stored failing, outage = [stored, failing] := ⟨_, _, rfl⟩
  have fails : FailsAfter ({} : FeedSection).toConfig ⟨0, .empty⟩ outage
      (runCycles ({} : FeedSection).toConfig ⟨0, .empty⟩ [stored]) [failing]
      offender .malicious := by
    cases split
    refine ⟨[], _, [], _, [], true, rfl, ⟨⟨_, List.mem_cons_self,
      List.mem_cons_self⟩, by decide, by decide⟩,
      ⟨rfl, _, List.mem_cons_self⟩, rfl, rfl, ?_⟩
    simp only [runCycles, List.foldl_cons, List.foldl_nil, now_runCycle]
    decide
  have kept := keeps _ _ _ _ fails
  rw [reputation_of_failsAfter fails] at kept
  cases split
  revert kept
  decide

end LightWaf.ThreatIntel
