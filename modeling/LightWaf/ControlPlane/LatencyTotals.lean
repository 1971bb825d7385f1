import LightWaf.Rust.HashMap
import LightWaf.Rust.Text
import LightWaf.Theory.Machine

/-!
# Lifetime latency totals

The embedding of `accumulate_latency_totals` of `waf-controlplane/src/store.rs`
and of the table `latency_totals`.  Every bucket finds out about a restart for
itself, from a count below the one it has seen before.  The totals stay a
histogram as long as the buckets that notice a restart are those from some
bound on.
-/

namespace LightWaf.ControlPlane

open LightWaf.Rust
open LightWaf.Theory

/-! ## The table -/

/-- `LatencyBucket`: a bound and the number of observations up to it. -/
structure LatencyBucket (Le : Type) where
  le : Le
  count : Int

/-- A row of `latency_totals` without its key. -/
structure LatencyRow where
  cumulative : Int
  lastRaw : Int
  updatedAt : Int

/-- A value that a column of type `BIGINT` can hold. -/
def bigint (value : Int) : Option Int :=
  if -2 ^ 63 ≤ value ∧ value < 2 ^ 63 then some value else none

/-- What a scrape adds to a row: the difference, or the count after a reset. -/
def LatencyRow.gain (row : LatencyRow) (count : Int) : Int :=
  if row.lastRaw ≤ count then count - row.lastRaw else count

/--
The statement of either table for one key: a new row, or the gain added to the
one there is.  Nothing if a value is out of range.
-/
def upsertRow {Key : Type} [DecidableEq Key] (table : HashMap Key LatencyRow)
    (key : Key) (count ts : Int) : Option (HashMap Key LatencyRow) :=
  match table.get key with
  | none => some (table.insert key ⟨count, count, ts⟩)
  | some row => do
      let gained ← bigint (row.gain count)
      let cumulative ← bigint (row.cumulative + gained)
      some (table.insert key ⟨cumulative, count, ts⟩)

variable {Le : Type} [LinearOrder Le]

/-- `latency_totals`, by node and bound; other nodes' rows included. -/
abbrev LatencyTotals (Le : Type) :=
  HashMap (Text × Le) LatencyRow

/-- The statement for one bucket. -/
def upsertLatencyRow
    (table : LatencyTotals Le) (node : Text) (ts : Int)
    (bucket : LatencyBucket Le) : Option (LatencyTotals Le) :=
  upsertRow table (node, bucket.le) bucket.count ts

/--
`accumulate_latency_totals`: the table it leaves and whether it succeeds.  The
statements before one that fails stay executed.
-/
def accumulateLatencyTotals (node : Text) (ts : Int) :
    List (LatencyBucket Le) → LatencyTotals Le → LatencyTotals Le × Bool
  | [], table => (table, true)
  | bucket :: rest, table =>
      match upsertLatencyRow table node ts bucket with
      | none => (table, false)
      | some next => accumulateLatencyTotals node ts rest next

/-! ## One call -/

/-- The row after a scrape, from the one before. -/
def LatencyRow.following : Option LatencyRow → Int → Int → LatencyRow
  | none, count, ts => ⟨count, count, ts⟩
  | some row, count, ts => ⟨row.cumulative + row.gain count, count, ts⟩

/-- A statement that succeeds writes the row that follows. -/
theorem upsertRow_eq
    {Key : Type} [DecidableEq Key] {table next : HashMap Key LatencyRow}
    {key : Key} {count ts : Int}
    (written : upsertRow table key count ts = some next) :
    next = table.insert key (.following (table.get key) count ts) := by
  rw [upsertRow] at written
  cases stored : table.get key with
  | none =>
      rw [stored] at written
      exact (Option.some.inj written).symm
  | some row =>
      rw [stored] at written
      simp only [Option.bind_eq_bind, Option.bind_eq_some_iff, bigint,
        Option.ite_none_right_eq_some, Option.some.injEq] at written
      obtain ⟨gained, ⟨-, rfl⟩, total, ⟨-, rfl⟩, rfl⟩ := written
      rfl

/-- A row that has seen a count gains nothing from it. -/
theorem LatencyRow.following_following
    (row : Option LatencyRow) (count ts : Int) :
    following (some (following row count ts)) count ts =
      following row count ts := by
  cases row <;> simp [following, gain]

/-- The sum of a bucket's total and its gain stays within `BIGINT`. -/
def Fits (table : LatencyTotals Le) (node : Text)
    (bucket : LatencyBucket Le) : Prop :=
  ∀ row, table.get (node, bucket.le) = some row →
    row.cumulative + row.gain bucket.count < 2 ^ 63

/-- The rows of a node hold counters. -/
def Sound (table : LatencyTotals Le) (node : Text) : Prop :=
  ∀ le row, table.get (node, le) = some row →
    0 ≤ row.cumulative ∧ 0 ≤ row.lastRaw

theorem LatencyRow.gain_nonneg
    {row : LatencyRow} {count : Int} (counted : 0 ≤ count) :
    0 ≤ row.gain count := by
  rw [gain]
  split_ifs with grown <;> omega

theorem LatencyRow.gain_le
    {row : LatencyRow} {count : Int} (seen : 0 ≤ row.lastRaw) :
    row.gain count ≤ count := by
  rw [gain]
  split_ifs with grown <;> omega

omit [LinearOrder Le] in
theorem bigint_eq_some
    {value : Int} (low : 0 ≤ value) (high : value < 2 ^ 63) :
    bigint value = some value :=
  if_pos ⟨by omega, high⟩

theorem upsertLatencyRow_eq_some
    {table : LatencyTotals Le} {node : Text} {bucket : LatencyBucket Le}
    (ts : Int) (sound : Sound table node) (low : 0 ≤ bucket.count)
    (high : bucket.count < 2 ^ 63) (fits : Fits table node bucket) :
    upsertLatencyRow table node ts bucket =
      some (table.insert (node, bucket.le)
        (.following (table.get (node, bucket.le)) bucket.count ts)) := by
  unfold upsertLatencyRow upsertRow
  cases stored : table.get (node, bucket.le) with
  | none => rfl
  | some row =>
      obtain ⟨total, seen⟩ := sound bucket.le row stored
      have gained := row.gain_nonneg low
      have within : row.gain bucket.count < 2 ^ 63 :=
        lt_of_le_of_lt (LatencyRow.gain_le seen) high
      have sum := bigint_eq_some (add_nonneg total gained) (fits row stored)
      dsimp only
      rw [bigint_eq_some gained within, Option.bind_eq_bind,
        Option.bind_some, sum]
      rfl

theorem LatencyRow.following_nonneg
    {table : LatencyTotals Le} {node : Text} (sound : Sound table node)
    (le : Le) {count : Int} (low : 0 ≤ count) (ts : Int) :
    0 ≤ (following (table.get (node, le)) count ts).cumulative ∧
      0 ≤ (following (table.get (node, le)) count ts).lastRaw := by
  cases stored : table.get (node, le) with
  | none => exact ⟨low, low⟩
  | some row =>
      exact ⟨add_nonneg (sound le row stored).1 (row.gain_nonneg low), low⟩

/-- What a scrape of a process reports: counters of a histogram. -/
structure Reported (buckets : List (LatencyBucket Le)) : Prop where
  low : ∀ bucket ∈ buckets, 0 ≤ bucket.count
  high : ∀ bucket ∈ buckets, bucket.count < 2 ^ 63
  nondecreasing : ∀ bucket ∈ buckets, ∀ other ∈ buckets,
    bucket.le ≤ other.le → bucket.count ≤ other.count

theorem Reported.count_eq
    {buckets : List (LatencyBucket Le)} (reported : Reported buckets)
    {bucket other : LatencyBucket Le} (member : bucket ∈ buckets)
    (otherMember : other ∈ buckets) (same : bucket.le = other.le) :
    bucket.count = other.count :=
  le_antisymm
    (reported.nondecreasing bucket member other otherMember same.le)
    (reported.nondecreasing other otherMember bucket member same.ge)

theorem Reported.tail
    {bucket : LatencyBucket Le} {rest : List (LatencyBucket Le)}
    (reported : Reported (bucket :: rest)) : Reported rest where
  low := fun other member =>
    reported.low other (List.mem_cons_of_mem _ member)
  high := fun other member =>
    reported.high other (List.mem_cons_of_mem _ member)
  nondecreasing := fun other member another anotherMember ordered =>
    reported.nondecreasing other (List.mem_cons_of_mem _ member) another
      (List.mem_cons_of_mem _ anotherMember) ordered

/-- The rows after a call: each one follows from its own count. -/
theorem accumulateLatencyTotals_spec
    {node : Text} (ts : Int) {buckets : List (LatencyBucket Le)}
    {table : LatencyTotals Le} (sound : Sound table node)
    (reported : Reported buckets)
    (fits : ∀ bucket ∈ buckets, Fits table node bucket) :
    (accumulateLatencyTotals node ts buckets table).2 = true ∧
      (∀ bucket ∈ buckets,
        (accumulateLatencyTotals node ts buckets table).1.get
            (node, bucket.le) =
          some (.following (table.get (node, bucket.le)) bucket.count ts)) ∧
      ∀ key, (∀ bucket ∈ buckets, key ≠ (node, bucket.le)) →
        (accumulateLatencyTotals node ts buckets table).1.get key =
          table.get key := by
  induction buckets generalizing table with
  | nil => exact ⟨rfl, fun _ member => absurd member List.not_mem_nil,
      fun _ _ => rfl⟩
  | cons bucket rest induction =>
      have low := reported.low bucket List.mem_cons_self
      have taken := upsertLatencyRow_eq_some ts sound low
        (reported.high bucket List.mem_cons_self)
        (fits bucket List.mem_cons_self)
      rw [accumulateLatencyTotals, taken]
      dsimp only
      generalize stored :
        LatencyRow.following (table.get (node, bucket.le)) bucket.count ts =
          row
      have nextSound : Sound (table.insert (node, bucket.le) row) node := by
        intro le other found
        rw [HashMap.get_insert] at found
        split_ifs at found with same
        · cases found
          rw [← stored]
          exact LatencyRow.following_nonneg sound bucket.le low ts
        · exact sound le other found
      -- A bucket behind is new to the table, or has the count of the first.
      have again : ∀ other ∈ rest, other.le = bucket.le →
          LatencyRow.following (some row) other.count ts = row := by
        intro other member same
        rw [reported.count_eq (List.mem_cons_of_mem _ member)
          List.mem_cons_self same, ← stored]
        exact LatencyRow.following_following _ _ _
      have nextFits : ∀ other ∈ rest,
          Fits (table.insert (node, bucket.le) row) node other := by
        intro other member found same
        rw [HashMap.get_insert] at same
        split_ifs at same with equal
        · cases same
          have kept := congrArg LatencyRow.cumulative
            (again other member (Prod.ext_iff.mp equal).2)
          have bounded : row.cumulative < 2 ^ 63 := by
            rw [← stored]
            cases present : table.get (node, bucket.le) with
            | none => exact reported.high bucket List.mem_cons_self
            | some before =>
                exact fits bucket List.mem_cons_self before present
          exact lt_of_eq_of_lt kept bounded
        · exact fits other (List.mem_cons_of_mem _ member) found same
      obtain ⟨succeeded, updated, framed⟩ :=
        induction nextSound reported.tail nextFits
      have first :
          (accumulateLatencyTotals node ts rest
            (table.insert (node, bucket.le) row)).1.get (node, bucket.le) =
            some row := by
        by_cases later : ∃ other ∈ rest, other.le = bucket.le
        · obtain ⟨other, member, same⟩ := later
          have found := updated other member
          rw [same, HashMap.get_insert_self, again other member same] at found
          exact found
        · rw [framed, HashMap.get_insert_self]
          intro other member same
          exact later ⟨other, member, (Prod.ext_iff.mp same).2.symm⟩
      refine ⟨succeeded, ?_, ?_⟩
      · intro other member
        rcases List.mem_cons.mp member with rfl | member
        · rw [first, stored]
        · by_cases same : other.le = bucket.le
          · rw [same, first, reported.count_eq
              (List.mem_cons_of_mem _ member) List.mem_cons_self same, stored]
          · rw [updated other member, HashMap.get_insert_of_ne]
            exact fun equal => same (Prod.ext_iff.mp equal).2
      · intro key outside
        rw [framed key fun other member =>
          outside other (List.mem_cons_of_mem _ member),
          HashMap.get_insert_of_ne _ _ (outside bucket List.mem_cons_self)]

/-! ## Runs of scrapes -/

/-- A scrape, and whether the process was restarted since the one before. -/
structure Scrape (Le : Type) where
  restarted : Bool
  buckets : List (LatencyBucket Le)
  ts : Int

/-- The table, with what the scrape before has reported. -/
structure Scraped (Le : Type) where
  table : LatencyTotals Le
  last : List (LatencyBucket Le)

/-- The call of one scrape. -/
def Scraped.after (state : Scraped Le) (node : Text) (scrape : Scrape Le) :
    Scraped Le :=
  ⟨(accumulateLatencyTotals node scrape.ts scrape.buckets state.table).1,
    scrape.buckets⟩

/--
A scrape of a process with the given bounds: its counters have only grown
since the scrape before, unless it was restarted.
-/
structure FromProcess
    (bounds : Set Le) (state : Scraped Le) (scrape : Scrape Le) : Prop where
  reported : Reported scrape.buckets
  bounds : ∀ le, le ∈ bounds ↔ ∃ bucket ∈ scrape.buckets, bucket.le = le
  grown : scrape.restarted = false →
    ∀ before ∈ state.last, ∀ bucket ∈ scrape.buckets,
      before.le = bucket.le → before.count ≤ bucket.count

/-- The total of a node at each bound is no smaller than at a bound below. -/
def Nondecreasing (table : LatencyTotals Le) (node : Text) : Prop :=
  ∀ le row other otherRow, le ≤ other → table.get (node, le) = some row →
    table.get (node, other) = some otherRow →
    row.cumulative ≤ otherRow.cumulative

/-- No total of a node is lost or smaller than before. -/
def NoSmaller (before after : LatencyTotals Le) (node : Text) : Prop :=
  ∀ le row, before.get (node, le) = some row →
    ∃ later, after.get (node, le) = some later ∧
      row.cumulative ≤ later.cumulative

/-- What a call leaves: a total at each bound, all of them a histogram. -/
structure StaysHistogram
    (bounds : Set Le) (node : Text) (state : Scraped Le)
    (scrape : Scrape Le) : Prop where
  present : ∀ le ∈ bounds,
    ((state.after node scrape).table.get (node, le)).isSome
  nondecreasing : Nondecreasing (state.after node scrape).table node
  noSmaller : NoSmaller state.table (state.after node scrape).table node

/-- The bucket notices a restart: its count is below the one seen before. -/
def Notices (table : LatencyTotals Le) (node : Text)
    (bucket : LatencyBucket Le) : Prop :=
  ∃ row, table.get (node, bucket.le) = some row ∧ bucket.count < row.lastRaw

/--
After a restart every bucket above one that notices it notices it too, and no
total leaves `BIGINT`.
-/
structure NoticedTogether
    (node : Text) (state : Scraped Le) (scrape : Scrape Le) : Prop where
  upward : scrape.restarted = true →
    ∀ bucket ∈ scrape.buckets, ∀ other ∈ scrape.buckets,
      bucket.le ≤ other.le → Notices state.table node bucket →
      Notices state.table node other
  fits : ∀ bucket ∈ scrape.buckets, Fits state.table node bucket

/-! ## The joint invariant -/

/-- What a row has gathered in the runs of the process that are over. -/
def LatencyRow.base (row : LatencyRow) : Int :=
  row.cumulative - row.lastRaw

/-- The bases and the counts of the current run are both histograms. -/
structure Settled
    (bounds : Set Le) (node : Text) (state : Scraped Le) : Prop where
  sound : Sound state.table node
  within : ∀ le row, state.table.get (node, le) = some row → le ∈ bounds
  together : ∀ le row, state.table.get (node, le) = some row →
    ∀ other ∈ bounds, (state.table.get (node, other)).isSome
  last : ∀ le row, state.table.get (node, le) = some row →
    ∃ bucket ∈ state.last, bucket.le = le ∧ bucket.count = row.lastRaw
  ordered : ∀ le row other otherRow, le ≤ other →
    state.table.get (node, le) = some row →
    state.table.get (node, other) = some otherRow →
    row.base ≤ otherRow.base ∧ row.lastRaw ≤ otherRow.lastRaw

theorem LatencyRow.base_following_some
    (row : LatencyRow) (count ts : Int) :
    (following (some row) count ts).base =
      row.base + if row.lastRaw ≤ count then 0 else row.lastRaw := by
  simp only [following, base, gain]
  split_ifs <;> omega

@[simp]
theorem LatencyRow.base_following_none (count ts : Int) :
    (following none count ts).base = 0 :=
  sub_self count

@[simp]
theorem LatencyRow.lastRaw_following
    (row : Option LatencyRow) (count ts : Int) :
    (following row count ts).lastRaw = count := by
  cases row <;> rfl

/-- A total is what was gathered before and in the current run. -/
theorem LatencyRow.cumulative_eq (row : LatencyRow) :
    row.cumulative = row.base + row.lastRaw := by
  rw [base]
  omega

/-- A lower bucket that notices a restart only together keeps its base below. -/
theorem LatencyRow.base_following_le
    {row other : LatencyRow} {count otherCount : Int} (ts : Int)
    (bases : row.base ≤ other.base) (raws : row.lastRaw ≤ other.lastRaw)
    (seen : 0 ≤ other.lastRaw)
    (together : count < row.lastRaw → otherCount < other.lastRaw) :
    (following (some row) count ts).base ≤
      (following (some other) otherCount ts).base := by
  rw [base_following_some, base_following_some]
  split_ifs with grown otherGrown otherGrown
  · omega
  · omega
  · exact absurd (together (not_le.mp grown)) (not_lt.mpr otherGrown)
  · omega

section Step

variable {bounds : Set Le} {node : Text} {state : Scraped Le}
  {scrape : Scrape Le}

/-- The rows of the node after a call. -/
theorem Settled.get_after_eq_some_iff
    (settled : Settled bounds node state)
    (scraped : FromProcess bounds state scrape)
    (noticed : NoticedTogether node state scrape) {le : Le}
    {row : LatencyRow} :
    (state.after node scrape).table.get (node, le) = some row ↔
      ∃ bucket ∈ scrape.buckets, bucket.le = le ∧
        row = .following (state.table.get (node, le)) bucket.count
          scrape.ts := by
  obtain ⟨-, updated, framed⟩ := accumulateLatencyTotals_spec scrape.ts
    settled.sound scraped.reported noticed.fits
  constructor
  · intro found
    by_cases inside : le ∈ bounds
    · obtain ⟨bucket, member, rfl⟩ := (scraped.bounds le).mp inside
      have same := (updated bucket member).symm.trans found
      exact ⟨bucket, member, rfl, (Option.some.inj same).symm⟩
    · have outside : ∀ bucket ∈ scrape.buckets,
          (node, le) ≠ (node, bucket.le) := by
        intro bucket member same
        exact inside ((scraped.bounds le).mpr
          ⟨bucket, member, (Prod.ext_iff.mp same).2.symm⟩)
      have kept := (framed (node, le) outside).symm.trans found
      exact absurd (settled.within le row kept) inside
  · rintro ⟨bucket, member, rfl, rfl⟩
    exact updated bucket member

/-- Without a restart no bucket notices one. -/
theorem Settled.notices_upward
    (settled : Settled bounds node state)
    (scraped : FromProcess bounds state scrape)
    (noticed : NoticedTogether node state scrape)
    {bucket other : LatencyBucket Le} (member : bucket ∈ scrape.buckets)
    (otherMember : other ∈ scrape.buckets) (ordered : bucket.le ≤ other.le)
    (notices : Notices state.table node bucket) :
    Notices state.table node other := by
  cases restarted : scrape.restarted with
  | true =>
      exact noticed.upward restarted bucket member other otherMember ordered
        notices
  | false =>
      obtain ⟨row, stored, below⟩ := notices
      obtain ⟨before, earlier, same, raw⟩ := settled.last bucket.le row stored
      have grown := scraped.grown restarted before earlier bucket member same
      omega

theorem Settled.after
    (settled : Settled bounds node state)
    (scraped : FromProcess bounds state scrape)
    (noticed : NoticedTogether node state scrape) :
    Settled bounds node (state.after node scrape) where
  sound := by
    intro le row found
    obtain ⟨bucket, member, -, rfl⟩ :=
      (settled.get_after_eq_some_iff scraped noticed).mp found
    exact LatencyRow.following_nonneg settled.sound le
      (scraped.reported.low bucket member) scrape.ts
  within := by
    intro le row found
    obtain ⟨bucket, member, same, -⟩ :=
      (settled.get_after_eq_some_iff scraped noticed).mp found
    exact (scraped.bounds le).mpr ⟨bucket, member, same⟩
  together := by
    intro le row found other inside
    obtain ⟨bucket, member, same⟩ := (scraped.bounds other).mp inside
    exact Option.isSome_iff_exists.mpr ⟨_,
      (settled.get_after_eq_some_iff scraped noticed).mpr
        ⟨bucket, member, same, rfl⟩⟩
  last := by
    intro le row found
    obtain ⟨bucket, member, same, rfl⟩ :=
      (settled.get_after_eq_some_iff scraped noticed).mp found
    exact ⟨bucket, member, same, (LatencyRow.lastRaw_following _ _ _).symm⟩
  ordered := by
    intro le row other otherRow below found otherFound
    obtain ⟨bucket, member, rfl, rfl⟩ :=
      (settled.get_after_eq_some_iff scraped noticed).mp found
    obtain ⟨otherBucket, otherMember, rfl, rfl⟩ :=
      (settled.get_after_eq_some_iff scraped noticed).mp otherFound
    have counts := scraped.reported.nondecreasing bucket member otherBucket
      otherMember below
    rw [LatencyRow.lastRaw_following, LatencyRow.lastRaw_following]
    refine ⟨?_, counts⟩
    -- Either the node is new at every bound or at none.
    cases stored : state.table.get (node, bucket.le) with
    | none =>
        cases otherStored : state.table.get (node, otherBucket.le) with
        | none => simp
        | some otherOld =>
            have present := settled.together _ otherOld otherStored bucket.le
              ((scraped.bounds _).mpr ⟨bucket, member, rfl⟩)
            rw [stored] at present
            exact absurd present Bool.false_ne_true
    | some old =>
        obtain ⟨otherOld, otherStored⟩ := Option.isSome_iff_exists.mp
          (settled.together _ old stored otherBucket.le
            ((scraped.bounds _).mpr ⟨otherBucket, otherMember, rfl⟩))
        rw [otherStored]
        obtain ⟨bases, raws⟩ :=
          settled.ordered _ old _ otherOld below stored otherStored
        apply LatencyRow.base_following_le scrape.ts bases raws
          (settled.sound _ otherOld otherStored).2
        intro drops
        obtain ⟨reached, same, otherDrops⟩ :=
          settled.notices_upward scraped noticed member otherMember below
            ⟨old, stored, drops⟩
        rw [otherStored] at same
        cases same
        exact otherDrops

/-- What one call does in a settled state. -/
theorem Settled.staysHistogram
    (settled : Settled bounds node state)
    (scraped : FromProcess bounds state scrape)
    (noticed : NoticedTogether node state scrape) :
    StaysHistogram bounds node state scrape where
  present := by
    intro le inside
    obtain ⟨bucket, member, same⟩ := (scraped.bounds le).mp inside
    exact Option.isSome_iff_exists.mpr ⟨_,
      (settled.get_after_eq_some_iff scraped noticed).mpr
        ⟨bucket, member, same, rfl⟩⟩
  nondecreasing := by
    intro le row other otherRow below found otherFound
    obtain ⟨bases, raws⟩ := (settled.after scraped noticed).ordered
      le row other otherRow below found otherFound
    rw [row.cumulative_eq, otherRow.cumulative_eq]
    exact add_le_add bases raws
  noSmaller := by
    intro le row stored
    obtain ⟨bucket, member, same⟩ :=
      (scraped.bounds le).mp (settled.within le row stored)
    refine ⟨_, (settled.get_after_eq_some_iff scraped noticed).mpr
      ⟨bucket, member, same, rfl⟩, ?_⟩
    rw [stored]
    exact le_add_of_nonneg_right
      (row.gain_nonneg (scraped.reported.low bucket member))

end Step

/-- A node without rows is settled. -/
theorem settled_of_absent
    (bounds : Set Le) {node : Text} {table : LatencyTotals Le}
    (absent : ∀ le, table.get (node, le) = none) :
    Settled bounds node ⟨table, []⟩ where
  sound := fun le row stored => by
    rw [absent le] at stored
    cases stored
  within := fun le row stored => by
    rw [absent le] at stored
    cases stored
  together := fun le row stored => by
    rw [absent le] at stored
    cases stored
  last := fun le row stored => by
    rw [absent le] at stored
    cases stored
  ordered := fun le row other otherRow _ stored => by
    rw [absent le] at stored
    cases stored

/--
In every run of scrapes of a node in which the buckets notice the restarts
together, every call leaves a histogram and no total gets smaller.
-/
theorem throughout_staysHistogram
    (bounds : Set Le) (node : Text) (table : LatencyTotals Le)
    (absent : ∀ le, table.get (node, le) = none)
    (scrapes : List (Scrape Le))
    (run : Machine.Throughout
      (fun state scrape => some (state.after node scrape))
      (fun state scrape => FromProcess bounds state scrape ∧
        NoticedTogether node state scrape) ⟨table, []⟩ scrapes) :
    Machine.Throughout (fun state scrape => some (state.after node scrape))
      (StaysHistogram bounds node) ⟨table, []⟩ scrapes := by
  refine Machine.Throughout.imp_of_invariant ?_ ?_
    (settled_of_absent bounds absent) run
  · intro state scrape settled holds
    exact settled.staysHistogram holds.1 holds.2
  · intro state scrape next settled holds taken
    cases taken
    exact settled.after holds.1 holds.2

/-- A scrape with two buckets, of the bounds 1 and 2. -/
def twoBuckets (restarted : Bool) (first second ts : Int) : Scrape Nat :=
  ⟨restarted, [⟨1, first⟩, ⟨2, second⟩], ts⟩

theorem fromProcess_twoBuckets
    (state : Scraped Nat) (restarted : Bool) {first second : Int} (ts : Int)
    (low : 0 ≤ first) (ordered : first ≤ second) (high : second < 2 ^ 63)
    (grown : restarted = false → state.last = []) :
    FromProcess {1, 2} state (twoBuckets restarted first second ts) where
  reported := by
    constructor
    · simp [twoBuckets]
      omega
    · simp [twoBuckets]
      omega
    · simp [twoBuckets, ordered]
  bounds := by
    intro le
    simp [twoBuckets, eq_comm]
  grown := by
    intro running before earlier
    rw [grown running] at earlier
    exact absurd earlier List.not_mem_nil

/-- Both buckets notice the restart: 90 and 100, then 3 and 4 anew. -/
theorem staysHistogram_noticed :
    Machine.Throughout
      (fun state scrape => some (Scraped.after state "n".toList scrape))
      (StaysHistogram {1, 2} "n".toList) ⟨HashMap.empty, []⟩
      [twoBuckets false 90 100 0, twoBuckets true 3 4 1] := by
  apply throughout_staysHistogram _ _ _ fun _ => rfl
  refine ⟨⟨fromProcess_twoBuckets _ _ _ (by decide) (by decide) (by decide)
    (fun _ => rfl), ?_⟩, ?_⟩
  · refine ⟨fun restarted => absurd restarted (by decide), ?_⟩
    intro bucket member row stored
    cases stored
  · intro next taken
    cases taken
    refine ⟨⟨fromProcess_twoBuckets _ _ _ (by decide) (by decide) (by decide)
      (fun running => absurd running (by decide)), ?_, ?_⟩,
      fun _ _ => trivial⟩
    · intro restarted bucket member other otherMember ordered notices
      simp only [twoBuckets, List.mem_cons, List.not_mem_nil,
        or_false] at otherMember
      rcases otherMember with rfl | rfl
      · exact ⟨⟨90, 90, 0⟩, rfl, by decide⟩
      · exact ⟨⟨100, 100, 0⟩, rfl, by decide⟩
    · intro bucket member row stored
      simp only [twoBuckets, List.mem_cons, List.not_mem_nil,
        or_false] at member
      rcases member with rfl | rfl
      · have same : some (LatencyRow.mk 90 90 0) = some row := stored
        cases same
        decide
      · have same : some (LatencyRow.mk 100 100 0) = some row := stored
        cases same
        decide

/-- Only the lower bucket notices the restart: 170 up to its bound, then 120. -/
theorem not_staysHistogram_restart :
    Machine.Throughout
        (fun state scrape => some (Scraped.after state "n".toList scrape))
        (FromProcess {1, 2}) ⟨HashMap.empty, []⟩
        [twoBuckets false 90 100 0, twoBuckets true 80 120 1] ∧
      ¬ Machine.Throughout
        (fun state scrape => some (Scraped.after state "n".toList scrape))
        (StaysHistogram {1, 2} "n".toList) ⟨HashMap.empty, []⟩
        [twoBuckets false 90 100 0, twoBuckets true 80 120 1] := by
  constructor
  · refine ⟨fromProcess_twoBuckets _ _ _ (by decide) (by decide) (by decide)
      (fun _ => rfl), ?_⟩
    intro next taken
    exact ⟨fromProcess_twoBuckets _ _ _ (by decide) (by decide) (by decide)
      (fun running => absurd running (by decide)), fun _ _ => trivial⟩
  · intro throughout
    have last := (throughout.2 _ rfl).1.nondecreasing 1 ⟨170, 80, 1⟩ 2
      ⟨120, 120, 1⟩ (by decide) rfl rfl
    exact absurd last (by decide)

end LightWaf.ControlPlane
