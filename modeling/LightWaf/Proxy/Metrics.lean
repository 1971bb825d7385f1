import LightWaf.Proxy.Forward
import LightWaf.Theory.Machine
import Mathlib.Data.Finset.Card
import Mathlib.Algebra.BigOperators.Fin

/-!
# Rendered metrics

The embedding of `waf-proxy/src/metrics.rs`, with the atomic steps of any
number of `record` calls between those of one `render` call.  A call counts
its observation in a bucket and then in the total, and the renderer loads the
buckets before the total: between its two steps a call is seen in a bucket
only.  The counters are 64 bits wide and start over; the sums of the buckets
start over too, or panic where the build checks for overflow.
-/

namespace LightWaf.Proxy

open LightWaf.Rust
open LightWaf.Theory

/-! ## The counters -/

/-- `Outcome::ALL`. -/
def Outcome.all : List Outcome :=
  [.allowed, .blocked, .rateLimited, .badRequest, .upstreamError,
    .internalError]

/-- `Outcome::label`. -/
def Outcome.label : Outcome → Text
  | .allowed => "allowed".toList
  | .blocked => "blocked".toList
  | .rateLimited => "rate_limited".toList
  | .badRequest => "bad_request".toList
  | .upstreamError => "upstream_error".toList
  | .internalError => "internal_error".toList

/--
`BUCKETS_SECONDS`, in nanoseconds.  The bounds are whole nanoseconds, so that
the comparison of seconds as floating-point numbers is exact.
-/
def bucketBounds : List Nat :=
  [500000, 1000000, 2500000, 5000000, 10000000, 25000000, 50000000,
    100000000, 250000000, 500000000, 1000000000, 2500000000, 5000000000,
    10000000000]

/-- The bounds as they are printed. -/
def bucketLabels : List Text :=
  ["0.0005".toList, "0.001".toList, "0.0025".toList, "0.005".toList,
    "0.01".toList, "0.025".toList, "0.05".toList, "0.1".toList,
    "0.25".toList, "0.5".toList, "1".toList, "2.5".toList, "5".toList,
    "10".toList]

/-- The counters of `Metrics`. -/
inductive Counter
  | request (outcome : Outcome)
  | bucket (index : Nat)
  | count
  | sumNanos
deriving DecidableEq

/-- The arguments of a `record` call, the latency in nanoseconds. -/
structure Call where
  outcome : Outcome
  elapsed : Nat

/-- The bucket of a latency, or the number of buckets beyond the last. -/
def bucketIndex (elapsed : Nat) : Nat :=
  (bucketBounds.takeWhile (· < elapsed)).length

/-- `record`: what is added to which counters, one atomic step each. -/
def Call.updates (call : Call) : List (Counter × Nat) :=
  (.request call.outcome, 1) ::
    ((if bucketIndex call.elapsed < bucketBounds.length then
        [(.bucket (bucketIndex call.elapsed), 1)]
      else []) ++
      [(.count, 1), (.sumNanos, call.elapsed % 2 ^ 64)])

/-- `render`: the counters in the order they are loaded. -/
def renderLoads : List Counter :=
  Outcome.all.map .request ++
    (List.range bucketBounds.length).map .bucket ++ [.count, .sumNanos]

/-- What `render` writes out. -/
structure Rendered where
  requests : List (Text × UInt64)
  buckets : List (Text × UInt64)
  inf : UInt64
  sumNanos : UInt64
  count : UInt64

/-- The sums of the buckets up to each; a checked overflow is a panic. -/
def cumulate (build : Build) :
    (cumulative : UInt64) → List UInt64 → Option (List UInt64)
  | _, [] => some []
  | cumulative, bucket :: rest =>
      if build.overflowChecks &&
          UInt64.size ≤ cumulative.toNat + bucket.toNat then none
      else (cumulate build (cumulative + bucket) rest).map
        ((cumulative + bucket) :: ·)

/-- The buckets as they were loaded. -/
def loadedBuckets (loaded : Counter → UInt64) : List UInt64 :=
  (List.range bucketBounds.length).map fun index => loaded (.bucket index)

/-- What `render` makes of the values loaded; `none` is a panic. -/
def rendered (build : Build) (loaded : Counter → UInt64) : Option Rendered :=
  (cumulate build 0 (loadedBuckets loaded)).map fun totals => {
    requests := Outcome.all.map fun outcome =>
      (outcome.label, loaded (.request outcome))
    buckets := bucketLabels.zip totals
    inf := loaded .count
    sumNanos := loaded .sumNanos
    count := loaded .count }

/-- A histogram: no bucket below a smaller one, none above the total. -/
structure Rendered.IsHistogram (text : Rendered) : Prop where
  nondecreasing : (text.buckets.map Prod.snd).Pairwise (· ≤ ·)
  total : ∀ bucket ∈ text.buckets, bucket.2 ≤ text.inf
  counted : text.count = text.inf

/-- The counters that count observations. -/
def Counter.counts : Counter → Bool
  | .bucket _ => true
  | .count => true
  | _ => false

theorem Call.nodup_updates (call : Call) :
    (call.updates.map Prod.fst).Nodup := by
  rw [Call.updates]
  split_ifs <;> simp

/-- What a call adds to. -/
theorem Call.updates_cases
    {call : Call} {counter : Counter} {amount : Nat}
    (update : (counter, amount) ∈ call.updates) :
    counter = .request call.outcome ∨ counter = .sumNanos ∨
      amount = 1 ∧ (counter = .count ∨
        counter = .bucket (bucketIndex call.elapsed)) := by
  rw [Call.updates, List.mem_cons, List.mem_append] at update
  rcases update with same | inBucket | last
  · exact .inl (congrArg Prod.fst same)
  · split_ifs at inBucket
    · cases List.mem_singleton.mp inBucket
      exact .inr (.inr ⟨rfl, .inr rfl⟩)
    · cases inBucket
  · rcases List.mem_pair.mp last with same | same
    · cases same
      exact .inr (.inr ⟨rfl, .inl rfl⟩)
    · exact .inr (.inl (congrArg Prod.fst same))

/-! ## Interleavings -/

/--
The counters with what is left to do for every `record` call and for the
`render` call.  Besides the values it is noted whose observations a counter
has, and whose it had when it was loaded.
-/
structure Registry (ι : Type) where
  counters : Counter → UInt64
  updates : ι → List (Counter × Nat)
  loads : List Counter
  loaded : Counter → UInt64
  applied : Counter → Finset ι
  seen : Counter → Finset ι

/-- An atomic step: of a `record` call, or of the `render` call. -/
inductive AtomicStep (ι : Type)
  | update (call : ι)
  | load

section Interleavings

variable {ι : Type}

/-- The registry of a process that has just started. -/
def Registry.start (calls : ι → Call) : Registry ι where
  counters := fun _ => 0
  updates := fun call => (calls call).updates
  loads := renderLoads
  loaded := fun _ => 0
  applied := fun _ => ∅
  seen := fun _ => ∅

/-- One atomic step. -/
def Registry.step [DecidableEq ι] (registry : Registry ι) :
    AtomicStep ι → Option (Registry ι)
  | .update call =>
      match registry.updates call with
      | [] => none
      | (counter, amount) :: rest =>
          some { registry with
            counters := Function.update registry.counters counter
              (registry.counters counter + .ofNat amount)
            updates := Function.update registry.updates call rest
            applied := Function.update registry.applied counter
              (insert call (registry.applied counter)) }
  | .load =>
      match registry.loads with
      | [] => none
      | counter :: rest =>
          some { registry with
            loads := rest
            loaded := Function.update registry.loaded counter
              (registry.counters counter)
            seen := Function.update registry.seen counter
              (registry.applied counter) }

/-! ## What is loaded -/

/--
A counter has the observations of the calls that have made their update of
it, each once, and what was loaded is what it had then.
-/
structure Registry.Invariant (calls : ι → Call) (registry : Registry ι) :
    Prop where
  applied : ∀ call, ∃ made,
    (calls call).updates = made ++ registry.updates call ∧
      ∀ counter, call ∈ registry.applied counter ↔
        counter ∈ made.map Prod.fst
  counters : ∀ counter, counter.counts →
    registry.counters counter = .ofNat (registry.applied counter).card
  loaded : ∀ counter, counter.counts →
    registry.loaded counter = .ofNat (registry.seen counter).card
  seen : ∀ counter, registry.seen counter ⊆ registry.applied counter

namespace Registry

variable {calls : ι → Call} {registry next : Registry ι}

theorem Invariant.start : (start calls).Invariant calls where
  applied := fun call => ⟨[], rfl, fun _ => by simp [Registry.start]⟩
  counters := fun _ _ => rfl
  loaded := fun _ _ => rfl
  seen := fun _ => Finset.Subset.refl _

/-- A call that has an update before it has not made it. -/
theorem Invariant.not_applied
    (invariant : registry.Invariant calls) {call : ι} {counter : Counter}
    {amount : Nat} {rest : List (Counter × Nat)}
    (ahead : registry.updates call = (counter, amount) :: rest) :
    call ∉ registry.applied counter := by
  obtain ⟨made, whole, applied⟩ := invariant.applied call
  have nodup := (calls call).nodup_updates
  rw [whole, ahead, List.map_append, List.map_cons] at nodup
  rw [applied]
  intro again
  exact (List.nodup_append.mp nodup).2.2 counter again counter
    List.mem_cons_self rfl

theorem Invariant.load
    (invariant : registry.Invariant calls) (counter : Counter)
    (rest : List Counter) :
    Invariant calls { registry with
      loads := rest
      loaded := Function.update registry.loaded counter
        (registry.counters counter)
      seen := Function.update registry.seen counter
        (registry.applied counter) } where
  applied := invariant.applied
  counters := invariant.counters
  loaded := by
    intro touched counts
    dsimp only
    by_cases here : touched = counter
    · subst here
      rw [Function.update_self, Function.update_self,
        invariant.counters touched counts]
    · rw [Function.update_of_ne here, Function.update_of_ne here,
        invariant.loaded touched counts]
  seen := by
    intro touched
    dsimp only
    by_cases here : touched = counter
    · subst here
      rw [Function.update_self]
    · rw [Function.update_of_ne here]
      exact invariant.seen touched

variable [DecidableEq ι]

theorem Invariant.update
    (invariant : registry.Invariant calls) {call : ι} {counter : Counter}
    {amount : Nat} {rest : List (Counter × Nat)}
    (ahead : registry.updates call = (counter, amount) :: rest) :
    Invariant calls { registry with
      counters := Function.update registry.counters counter
        (registry.counters counter + .ofNat amount)
      updates := Function.update registry.updates call rest
      applied := Function.update registry.applied counter
        (insert call (registry.applied counter)) } where
  applied := by
    intro other
    dsimp only
    obtain ⟨made, whole, applied⟩ := invariant.applied other
    by_cases same : other = call
    · subst same
      refine ⟨made ++ [(counter, amount)], ?_, fun touched => ?_⟩
      · rw [whole, ahead, Function.update_self]
        simp
      · by_cases here : touched = counter
        · subst here
          simp
        · rw [Function.update_of_ne here, applied]
          simp [here]
    · refine ⟨made, ?_, fun touched => ?_⟩
      · rw [whole, Function.update_of_ne same]
      · by_cases here : touched = counter
        · subst here
          rw [Function.update_self, Finset.mem_insert, applied]
          simp [same]
        · rw [Function.update_of_ne here, applied]
  counters := by
    intro touched counts
    dsimp only
    by_cases here : touched = counter
    · subst here
      obtain ⟨made, whole, -⟩ := invariant.applied call
      have listed : (touched, amount) ∈ (calls call).updates := by
        rw [whole, ahead]
        exact List.mem_append_right _ List.mem_cons_self
      have one : amount = 1 := by
        rcases Call.updates_cases listed with rfl | rfl | ⟨one, -⟩
        · cases counts
        · cases counts
        · exact one
      rw [Function.update_self, Function.update_self,
        Finset.card_insert_of_notMem (invariant.not_applied ahead),
        invariant.counters touched counts, one, UInt64.ofNat_add]
    · rw [Function.update_of_ne here, Function.update_of_ne here,
        invariant.counters touched counts]
  loaded := invariant.loaded
  seen := by
    intro touched
    dsimp only
    by_cases here : touched = counter
    · subst here
      rw [Function.update_self]
      exact (invariant.seen touched).trans (Finset.subset_insert _ _)
    · rw [Function.update_of_ne here]
      exact invariant.seen touched

theorem Invariant.step
    (invariant : registry.Invariant calls) {step : AtomicStep ι}
    (taken : registry.step step = some next) : next.Invariant calls := by
  cases step with
  | update call =>
      rw [Registry.step] at taken
      split at taken
      · cases taken
      · rename_i counter amount rest ahead
        cases taken
        exact invariant.update ahead
  | load =>
      rw [Registry.step] at taken
      split at taken
      · cases taken
      · rename_i counter rest ahead
        cases taken
        exact invariant.load counter rest

/-- The calls that were loaded with the buckets. -/
def inBuckets (registry : Registry ι) : Finset ι :=
  (Finset.range bucketBounds.length).biUnion fun index =>
    registry.seen (.bucket index)

/-- The calls that were loaded with the total. -/
def inTotal (registry : Registry ι) : Finset ι :=
  registry.seen .count

omit [DecidableEq ι] in
/-- A call is loaded with no bucket but its own. -/
theorem Invariant.index_of_seen
    (invariant : registry.Invariant calls) {index : Nat} {call : ι}
    (seen : call ∈ registry.seen (.bucket index)) :
    index = bucketIndex (calls call).elapsed := by
  obtain ⟨made, whole, applied⟩ := invariant.applied call
  have listed := (applied _).mp (invariant.seen _ seen)
  obtain ⟨⟨counter, amount⟩, member, same⟩ := List.mem_map.mp listed
  have update : (counter, amount) ∈ (calls call).updates := by
    rw [whole]
    exact List.mem_append_left _ member
  rw [show counter = .bucket index from same] at update
  rcases Call.updates_cases update with other | other | ⟨-, other | own⟩
  · cases other
  · cases other
  · cases other
  · exact Counter.bucket.inj own

/-- The buckets have every call that was loaded with a bucket, once. -/
theorem Invariant.sum_card (invariant : registry.Invariant calls) :
    ∑ index ∈ Finset.range bucketBounds.length,
        (registry.seen (.bucket index)).card = registry.inBuckets.card := by
  refine (Finset.card_biUnion ?_).symm
  intro index _ other _ differ
  refine Finset.disjoint_left.mpr fun call seen again => differ ?_
  rw [invariant.index_of_seen seen, invariant.index_of_seen again]

omit [DecidableEq ι] in
/-- The sum of the loaded buckets, each cut to 64 bits. -/
theorem Invariant.sum_loadedBuckets (invariant : registry.Invariant calls) :
    ((loadedBuckets registry.loaded).map UInt64.toNat).sum =
      ∑ index ∈ Finset.range bucketBounds.length,
        (registry.seen (.bucket index)).card % 2 ^ 64 := by
  have sizes : ∀ index, (registry.loaded (.bucket index)).toNat =
      (registry.seen (.bucket index)).card % 2 ^ 64 := by
    intro index
    rw [invariant.loaded (.bucket index) rfl]
    exact UInt64.toNat_ofNat'
  rw [loadedBuckets, List.map_map]
  simp only [Function.comp_def, sizes]
  exact (Multiset.sum_coe _).symm

end Registry

/-- A sum that runs over falls back behind the one before. -/
theorem lt_of_overflow
    {cumulative bucket : UInt64}
    (overflow : UInt64.size ≤ cumulative.toNat + bucket.toNat) :
    (cumulative + bucket).toNat < cumulative.toNat := by
  have small := bucket.toNat_lt
  have least := cumulative.toNat_lt
  rw [UInt64.toNat_add]
  simp only [UInt64.size] at overflow
  omega

/--
The sums stay in order and below a bound exactly when the buckets add up to no
more than that.
-/
theorem cumulate_le_iff
    (build : Build) {bound : UInt64} (buckets : List UInt64)
    {cumulative : UInt64} (below : cumulative ≤ bound) :
    (∃ totals, cumulate build cumulative buckets = some totals ∧
        totals.Pairwise (· ≤ ·) ∧
        ∀ total ∈ totals, cumulative ≤ total ∧ total ≤ bound) ↔
      cumulative.toNat + (buckets.map UInt64.toNat).sum ≤ bound.toNat := by
  induction buckets generalizing cumulative with
  | nil =>
      refine ⟨fun _ => below, fun _ => ⟨[], rfl, .nil, ?_⟩⟩
      exact fun _ member => absurd member List.not_mem_nil
  | cons bucket rest induction =>
      rw [List.map_cons, List.sum_cons, ← Nat.add_assoc]
      by_cases overflow : UInt64.size ≤ cumulative.toNat + bucket.toNat
      · have most : bound.toNat < UInt64.size := bound.toNat_lt
        refine iff_of_false ?_ (by omega)
        rintro ⟨totals, cumulated, -, within⟩
        rw [cumulate] at cumulated
        split at cumulated
        · cases cumulated
        · obtain ⟨later, -, rfl⟩ := Option.map_eq_some_iff.mp cumulated
          have grown := UInt64.le_iff_toNat_le.mp
            (within _ List.mem_cons_self).1
          exact absurd (lt_of_overflow overflow) (not_lt.mpr grown)
      · have sum : (cumulative + bucket).toNat =
            cumulative.toNat + bucket.toNat := by
          rw [UInt64.toNat_add]
          exact Nat.mod_eq_of_lt (not_le.mp overflow)
        have grown : cumulative ≤ cumulative + bucket := by
          rw [UInt64.le_iff_toNat_le, sum]
          exact Nat.le_add_right _ _
        have goesOn : cumulate build cumulative (bucket :: rest) =
            (cumulate build (cumulative + bucket) rest).map
              ((cumulative + bucket) :: ·) := by
          rw [cumulate, if_neg (by simp [overflow])]
        rw [goesOn, ← sum]
        by_cases inside : cumulative + bucket ≤ bound
        · rw [← induction inside]
          constructor
          · rintro ⟨totals, cumulated, sorted, within⟩
            obtain ⟨later, added, rfl⟩ := Option.map_eq_some_iff.mp cumulated
            obtain ⟨first, sorted⟩ := List.pairwise_cons.mp sorted
            exact ⟨later, added, sorted, fun total member =>
              ⟨first total member,
                (within total (List.mem_cons_of_mem _ member)).2⟩⟩
          · rintro ⟨later, added, sorted, within⟩
            refine ⟨(cumulative + bucket) :: later,
              Option.map_eq_some_iff.mpr ⟨later, added, rfl⟩,
              List.pairwise_cons.mpr
                ⟨fun total member => (within total member).1, sorted⟩, ?_⟩
            intro total member
            rcases List.mem_cons.mp member with rfl | member
            · exact ⟨grown, inside⟩
            · exact ⟨UInt64.le_trans grown (within total member).1,
                (within total member).2⟩
        · refine iff_of_false ?_ fun small => inside ?_
          · rintro ⟨totals, cumulated, -, within⟩
            obtain ⟨later, -, rfl⟩ := Option.map_eq_some_iff.mp cumulated
            exact inside (within _ List.mem_cons_self).2
          · exact UInt64.le_iff_toNat_le.mpr
              ((Nat.le_add_right _ _).trans small)

/-- The sums of the buckets up to each, cut to 64 bits. -/
def sumsFrom (cumulative : UInt64) (buckets : List UInt64) : List UInt64 :=
  (List.range buckets.length).map fun index =>
    .ofNat (cumulative.toNat +
      ((buckets.take (index + 1)).map UInt64.toNat).sum)

theorem sumsFrom_cons (cumulative bucket : UInt64) (rest : List UInt64) :
    sumsFrom cumulative (bucket :: rest) =
      (cumulative + bucket) :: sumsFrom (cumulative + bucket) rest := by
  rw [sumsFrom, List.length_cons, List.range_succ_eq_map, List.map_cons,
    List.map_map, sumsFrom]
  have first : UInt64.ofNat (cumulative.toNat +
      (((bucket :: rest).take (0 + 1)).map UInt64.toNat).sum) =
        cumulative + bucket := by
    simp
  rw [first]
  refine congrArg ((cumulative + bucket) :: ·) ?_
  refine List.map_congr_left fun index _ => ?_
  rw [← UInt64.toNat_inj, UInt64.toNat_ofNat']
  simp [UInt64.toNat_add, Nat.add_assoc]

/--
The sums are those cut to 64 bits; a build that checks them panics when they
run over.
-/
theorem cumulate_eq
    (build : Build) (cumulative : UInt64) (buckets : List UInt64) :
    cumulate build cumulative buckets =
      if build.overflowChecks = true ∧
          2 ^ 64 ≤ cumulative.toNat + (buckets.map UInt64.toNat).sum then none
      else some (sumsFrom cumulative buckets) := by
  induction buckets generalizing cumulative with
  | nil =>
      have small := cumulative.toNat_lt
      rw [if_neg fun overflow => absurd overflow.2 (not_le.mpr small)]
      rfl
  | cons bucket rest induction =>
      rw [cumulate, induction, sumsFrom_cons, List.map_cons, List.sum_cons,
        ← Nat.add_assoc]
      by_cases overflow : UInt64.size ≤ cumulative.toNat + bucket.toNat
      · have later : 2 ^ 64 ≤ cumulative.toNat + bucket.toNat +
            (rest.map UInt64.toNat).sum :=
          overflow.trans (Nat.le_add_right _ _)
        cases build.overflowChecks with
        | true => rw [if_pos (by simp [overflow]), if_pos ⟨rfl, later⟩]
        | false => simp
      · have sum : (cumulative + bucket).toNat =
            cumulative.toNat + bucket.toNat := by
          rw [UInt64.toNat_add]
          exact Nat.mod_eq_of_lt (not_le.mp overflow)
        rw [if_neg (by simp [overflow]), sum]
        split_ifs <;> rfl

theorem length_cumulate
    {build : Build} {cumulative : UInt64} {buckets totals : List UInt64}
    (cumulated : cumulate build cumulative buckets = some totals) :
    totals.length = buckets.length := by
  rw [cumulate_eq, Option.ite_none_left_eq_some] at cumulated
  cases cumulated.2
  rw [sumsFrom, List.length_map, List.length_range]

/-- A text is a histogram when the total reaches the sum of the buckets. -/
theorem isHistogram_rendered_iff
    (build : Build) (loaded : Counter → UInt64) :
    (∃ text, rendered build loaded = some text ∧ text.IsHistogram) ↔
      ((loadedBuckets loaded).map UInt64.toNat).sum ≤
        (loaded .count).toNat := by
  have bounded := cumulate_le_iff build (loadedBuckets loaded)
    (UInt64.zero_le (a := loaded .count))
  rw [UInt64.toNat_zero, Nat.zero_add] at bounded
  rw [← bounded]
  have values {totals : List UInt64}
      (cumulated : cumulate build 0 (loadedBuckets loaded) = some totals) :
      (bucketLabels.zip totals).map Prod.snd = totals := by
    refine List.map_snd_zip ?_
    rw [length_cumulate cumulated]
    rfl
  constructor
  · rintro ⟨text, made, histogram⟩
    obtain ⟨totals, cumulated, rfl⟩ := Option.map_eq_some_iff.mp made
    have sorted := histogram.nondecreasing
    dsimp only at sorted
    rw [values cumulated] at sorted
    refine ⟨totals, cumulated, sorted, fun total member =>
      ⟨UInt64.zero_le, ?_⟩⟩
    rw [← values cumulated] at member
    obtain ⟨bucket, inside, rfl⟩ := List.mem_map.mp member
    exact histogram.total bucket inside
  · rintro ⟨totals, cumulated, sorted, within⟩
    refine ⟨_, Option.map_eq_some_iff.mpr ⟨totals, cumulated, rfl⟩, ?_, ?_,
      rfl⟩
    · dsimp only
      rwa [values cumulated]
    · intro bucket member
      exact (within _ (List.of_mem_zip member).2).2

/--
At every point of an interleaving, what was loaded is rendered as a histogram
exactly when the calls loaded with the buckets, counted to 64 bits in each, are
no more than those loaded with the total.  As long as they are fewer than
`2 ^ 64` that is: when the calls loaded with a bucket but not with the total
are no more than those loaded with the total alone.
-/
theorem isHistogram_iff
    [DecidableEq ι] (build : Build) (calls : ι → Call)
    {steps : List (AtomicStep ι)} {registry : Registry ι}
    (ran : steps.foldlM Registry.step (Registry.start calls) =
      some registry) :
    ((∃ text, rendered build registry.loaded = some text ∧
        text.IsHistogram) ↔
      ∑ index ∈ Finset.range bucketBounds.length,
          (registry.seen (.bucket index)).card % 2 ^ 64 ≤
        registry.inTotal.card % 2 ^ 64) ∧
    ((registry.inBuckets ∪ registry.inTotal).card < 2 ^ 64 →
      ((∃ text, rendered build registry.loaded = some text ∧
          text.IsHistogram) ↔
        (registry.inBuckets \ registry.inTotal).card ≤
          (registry.inTotal \ registry.inBuckets).card)) := by
  have invariant : registry.Invariant calls :=
    Machine.invariant_of_run
      (fun _ _ _ invariant taken => invariant.step taken)
      Registry.Invariant.start ran
  have total : (registry.loaded .count).toNat =
      registry.inTotal.card % 2 ^ 64 := by
    rw [invariant.loaded .count rfl]
    exact UInt64.toNat_ofNat'
  rw [isHistogram_rendered_iff, invariant.sum_loadedBuckets, total]
  refine ⟨Iff.rfl, fun few => ?_⟩
  have buckets : ∑ index ∈ Finset.range bucketBounds.length,
      (registry.seen (.bucket index)).card % 2 ^ 64 =
        registry.inBuckets.card := by
    rw [← invariant.sum_card]
    refine Finset.sum_congr rfl fun index member => Nat.mod_eq_of_lt ?_
    refine (Finset.card_le_card ?_).trans_lt few
    exact (Finset.subset_biUnion_of_mem
      (fun index => registry.seen (.bucket index)) member).trans
        Finset.subset_union_left
  rw [buckets, Finset.card_sdiff_le_card_sdiff_iff, Nat.mod_eq_of_lt]
  exact (Finset.card_le_card Finset.subset_union_right).trans_lt few

end Interleavings

/-- Two requests of a millisecond. -/
def twoCalls (_ : Bool) : Call :=
  ⟨.allowed, 1000000⟩

/--
One call is loaded with its bucket alone, the other one with the total alone.
-/
def renderedAcross : List (AtomicStep Bool) :=
  List.replicate 2 (.update false) ++ List.replicate 20 .load ++
    List.replicate 3 (.update true) ++ List.replicate 2 .load

theorem isHistogram_renderedAcross :
    ∃ registry, renderedAcross.foldlM Registry.step (Registry.start twoCalls) =
        some registry ∧ registry.loads = [] ∧
      registry.inBuckets = {false} ∧ registry.inTotal = {true} ∧
      ∃ text, rendered ⟨true⟩ registry.loaded = some text ∧
        text.IsHistogram := by
  obtain ⟨registry, ran, done, buckets, total⟩ : ∃ registry,
      renderedAcross.foldlM Registry.step (Registry.start twoCalls) =
        some registry ∧ registry.loads = [] ∧
      registry.inBuckets = {false} ∧ registry.inTotal = {true} := by
    refine ⟨_, rfl, rfl, ?_, ?_⟩
    · decide
    · decide
  refine ⟨registry, ran, done, buckets, total, ?_⟩
  refine ((isHistogram_iff ⟨true⟩ twoCalls ran).2 ?_).mpr ?_
  · rw [buckets, total]
    decide
  · rw [buckets, total]
    decide

/-- The text is rendered between the two counts of a call. -/
def renderedBetween : List (AtomicStep Unit) :=
  List.replicate 2 (.update ()) ++ List.replicate 22 .load ++
    List.replicate 2 (.update ())

/-- One request of a millisecond. -/
def oneCall (_ : Unit) : Call :=
  ⟨.allowed, 1000000⟩

theorem not_isHistogram_between :
    ∃ registry, renderedBetween.foldlM Registry.step
        (Registry.start oneCall) = some registry ∧ registry.loads = [] ∧
      ∀ build, ¬ ∃ text, rendered build registry.loaded = some text ∧
        text.IsHistogram := by
  refine ⟨_, rfl, rfl, fun build histogram => ?_⟩
  rw [isHistogram_rendered_iff] at histogram
  revert histogram
  decide

end LightWaf.Proxy
