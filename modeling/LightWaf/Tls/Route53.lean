import LightWaf.Rust.HashMap
import LightWaf.Rust.Text
import LightWaf.Theory.Machine

/-!
# Challenge records in Route 53

The embedding of `waf-tls-managed/src/dns/route53.rs`.  The provider keeps the
values of each name in memory and replaces the whole record set of the name on
every call.  The memory is updated before the request that may fail, so that
it also holds the values of failed calls, and forgets a name before its record
set is deleted.  The service is a parameter with the documented effect of the
changes that it accepts.
-/

namespace LightWaf.Tls.Route53

open LightWaf.Rust
open LightWaf.Theory

/-! ## The provider -/

/-- `ChangeAction`, as far as it is used. -/
inductive ChangeAction
  | upsert
  | delete

/-- `DnsError`. -/
inductive DnsError
  | api (message : Text)
  | config (message : Text)

/-- `TxtHandle`. -/
structure TxtHandle where
  name : Text
  value : Text
  providerRef : Text

/-- The TXT record sets of the hosted zone, by name. -/
abbrev Zone := Text → Option (Finset Text)

/-- The service, as it answers a change of one record set. -/
structure Service where
  change : Zone → ChangeAction → Text → Finset Text → Except Text Zone

/-- `UPSERT` replaces a record set and `DELETE` takes it away. -/
structure Service.Documented (service : Service) : Prop where
  upsert : ∀ zone name records next,
    service.change zone .upsert name records = .ok next →
      next = Function.update zone name (some records)
  delete : ∀ zone name records next,
    service.change zone .delete name records = .ok next →
      next = Function.update zone name none

/-- The values that were published by name, and the zone. -/
structure Route53Dns where
  published : HashMap Text (Finset Text)
  zone : Zone

/-- A value as it stands in a TXT record. -/
def record (value : Text) : Text :=
  '"' :: (value ++ ['"'])

section Service

variable (service : Service)

/-- `Route53Dns::apply`; `error` is what a request that fails reports. -/
def apply (zone : Zone) (error : Option Text) (action : ChangeAction)
    (name : Text) (values : Finset Text) : Except DnsError Zone :=
  let sent : Except Text Zone :=
    match error with
    | some failure => .error failure
    | none => service.change zone action name (values.image record)
  sent.mapError fun failure =>
    .api ("route53 change failed: ".toList ++ failure)

/-- `add_txt`. -/
def Route53Dns.addTxt (dns : Route53Dns) (error : Option Text)
    (name value : Text) : Route53Dns × Except DnsError TxtHandle :=
  let set := insert value ((dns.published.get name).getD ∅)
  let published := dns.published.insert name set
  match apply service dns.zone error .upsert name set with
  | .error failure => (⟨published, dns.zone⟩, .error failure)
  | .ok zone => (⟨published, zone⟩, .ok ⟨name, value, []⟩)

/-- `RemovePlan`. -/
inductive RemovePlan
  | noop
  | delete (values : Finset Text)
  | upsert (values : Finset Text)

/-- The first half of `remove_txt`: the memory after it, and what is left to do. -/
def removePlan (published : HashMap Text (Finset Text)) (handle : TxtHandle) :
    HashMap Text (Finset Text) × RemovePlan :=
  match published.get handle.name with
  | some set =>
      if set.erase handle.value = ∅ then
        (published.remove handle.name, .delete {handle.value})
      else
        (published.insert handle.name (set.erase handle.value),
          .upsert (set.erase handle.value))
  | none => (published, .noop)

/-- `remove_txt`. -/
def Route53Dns.removeTxt (dns : Route53Dns) (error : Option Text)
    (handle : TxtHandle) : Route53Dns × Except DnsError Unit :=
  let (published, plan) := removePlan dns.published handle
  let applied : Except DnsError Zone :=
    match plan with
    | .noop => .ok dns.zone
    | .delete values => apply service dns.zone error .delete handle.name values
    | .upsert values => apply service dns.zone error .upsert handle.name values
  match applied with
  | .error failure => (⟨published, dns.zone⟩, .error failure)
  | .ok zone => (⟨published, zone⟩, .ok ())

/-! ## Calls -/

/-- A call on the provider. -/
inductive Request
  | addTxt (name value : Text)
  | removeTxt (handle : TxtHandle)

def Request.name : Request → Text
  | .addTxt name _ => name
  | .removeTxt handle => handle.name

def Request.value : Request → Text
  | .addTxt _ value => value
  | .removeTxt handle => handle.value

/-- A call, and the error of its request to the service if there is one. -/
structure Call where
  request : Request
  error : Option Text

/-- A call: the provider after it and whether it returns `Ok`. -/
def Route53Dns.perform (dns : Route53Dns) (call : Call) : Route53Dns × Bool :=
  match call.request with
  | .addTxt name value =>
      let (next, returned) := dns.addTxt service call.error name value
      (next, returned.isOk)
  | .removeTxt handle =>
      let (next, returned) := dns.removeTxt service call.error handle
      (next, returned.isOk)

/--
The provider with two accounts of the calls so far, by name: the values whose
`add_txt` returned `Ok`, and those whose `add_txt` failed, each without those
that `remove_txt` was called for.
-/
structure Observed where
  dns : Route53Dns
  live : Text → Finset Text
  failed : Text → Finset Text

/-- Before the first call, with no record set in the zone. -/
def Observed.initial : Observed :=
  ⟨⟨HashMap.empty, fun _ => none⟩, fun _ => ∅, fun _ => ∅⟩

/-- The account of the live values after a call. -/
def Observed.liveAfter (observed : Observed) (call : Call) : Finset Text :=
  let live := observed.live call.request.name
  match call.request with
  | .addTxt _ value =>
      if (observed.dns.perform service call).2 then insert value live else live
  | .removeTxt handle => live.erase handle.value

/-- The account of the failed values after a call. -/
def Observed.failedAfter (observed : Observed) (call : Call) : Finset Text :=
  let failed := observed.failed call.request.name
  match call.request with
  | .addTxt name value =>
      if (observed.dns.perform service call).2 then failed.erase value
      else insert value failed \ observed.live name
  | .removeTxt handle => failed.erase handle.value

/-- A call, with the accounts kept. -/
def Observed.after (observed : Observed) (call : Call) : Observed where
  dns := (observed.dns.perform service call).1
  live := Function.update observed.live call.request.name
    (observed.liveAfter service call)
  failed := Function.update observed.failed call.request.name
    (observed.failedAfter service call)

/-- The record set for some values; without values there is none. -/
def recordSet (values : Finset Text) : Option (Finset Text) :=
  if values = ∅ then none else some (values.image record)

/-- If the call returns `Ok`, its name holds exactly the live values. -/
def HoldsLive (observed : Observed) (call : Call) : Prop :=
  (observed.dns.perform service call).2 = true →
    (observed.after service call).dns.zone call.request.name =
      recordSet ((observed.after service call).live call.request.name)

/--
If the call returns `Ok`, no other value of its name is left from a failed
`add_txt`, and no record set from a failed deletion when the name is already
forgotten.
-/
def NothingLeft (observed : Observed) (call : Call) : Prop :=
  (observed.dns.perform service call).2 = true →
    observed.failed call.request.name ⊆ {call.request.value} ∧
      match call.request with
      | .addTxt _ _ => True
      | .removeTxt handle => observed.dns.published.get handle.name = none →
          observed.dns.zone handle.name = none

end Service

/-! ## What a call does -/

theorem record_injective : Function.Injective record := by
  intro value other same
  exact List.append_cancel_right (List.cons.inj same).2

theorem recordSet_eq_some_iff
    {live values : Finset Text} (nonempty : values.Nonempty) :
    some (values.image record) = recordSet live ↔ values = live := by
  rw [recordSet]
  split_ifs with empty
  · rw [empty]
    constructor
    · intro same
      cases same
    · intro same
      exact absurd same nonempty.ne_empty
  · rw [Option.some_inj, Finset.image_inj record_injective]

variable {service : Service}

/-- A change that is applied was sent and accepted. -/
theorem change_of_apply
    {zone next : Zone} {error : Option Text} {action : ChangeAction}
    {name : Text} {values : Finset Text}
    (applied : apply service zone error action name values = .ok next) :
    service.change zone action name (values.image record) = .ok next := by
  unfold apply at applied
  cases error with
  | some failure => cases applied
  | none =>
      dsimp only at applied
      cases sent : service.change zone action name (values.image record) with
      | error failure =>
          rw [sent] at applied
          cases applied
      | ok changed =>
          rw [sent] at applied
          cases applied
          rfl

/-- `add_txt` puts the value into the memory, also if its request fails. -/
theorem published_addTxt
    (dns : Route53Dns) (name value : Text) (error : Option Text) :
    (dns.perform service ⟨.addTxt name value, error⟩).1.published =
      dns.published.insert name
        (insert value ((dns.published.get name).getD ∅)) := by
  simp only [Route53Dns.perform, Route53Dns.addTxt]
  split <;> rfl

/-- An `add_txt` that returns `Ok` has published the whole memory. -/
theorem zone_addTxt
    (documented : service.Documented) {dns : Route53Dns} {name value : Text}
    {error : Option Text}
    (returned : (dns.perform service ⟨.addTxt name value, error⟩).2 = true) :
    (dns.perform service ⟨.addTxt name value, error⟩).1.zone =
      Function.update dns.zone name (some
        ((insert value ((dns.published.get name).getD ∅)).image record)) := by
  simp only [Route53Dns.perform, Route53Dns.addTxt] at returned ⊢
  split at returned
  · cases returned
  · rename_i next applied
    exact documented.upsert _ _ _ _ (change_of_apply applied)

/-- A `remove_txt` at a name that is not in memory does nothing. -/
theorem perform_removeTxt_of_none
    {dns : Route53Dns} {handle : TxtHandle}
    (absent : dns.published.get handle.name = none) (error : Option Text) :
    dns.perform service ⟨.removeTxt handle, error⟩ = (dns, true) := by
  simp only [Route53Dns.perform, Route53Dns.removeTxt, removePlan, absent]
  rfl

/-- `remove_txt` leaves the memory as it planned, also if its request fails. -/
theorem published_removeTxt
    (dns : Route53Dns) (handle : TxtHandle) (error : Option Text) :
    (dns.perform service ⟨.removeTxt handle, error⟩).1.published =
      (removePlan dns.published handle).1 := by
  simp only [Route53Dns.perform, Route53Dns.removeTxt]
  split <;> rfl

/-- The last value of a name: the name is forgotten and deleted. -/
theorem removePlan_of_last
    {published : HashMap Text (Finset Text)} {handle : TxtHandle}
    {set : Finset Text} (stored : published.get handle.name = some set)
    (last : set.erase handle.value = ∅) :
    removePlan published handle =
      (published.remove handle.name, .delete {handle.value}) := by
  rw [removePlan, stored]
  exact if_pos last

/-- Other values remain: they replace the record set. -/
theorem removePlan_of_more
    {published : HashMap Text (Finset Text)} {handle : TxtHandle}
    {set : Finset Text} (stored : published.get handle.name = some set)
    (more : set.erase handle.value ≠ ∅) :
    removePlan published handle =
      (published.insert handle.name (set.erase handle.value),
        .upsert (set.erase handle.value)) := by
  rw [removePlan, stored]
  exact if_neg more

/-- What a `remove_txt` that returns `Ok` has made of the zone. -/
theorem zone_removeTxt
    (documented : service.Documented) {dns : Route53Dns} {handle : TxtHandle}
    {error : Option Text}
    (returned : (dns.perform service ⟨.removeTxt handle, error⟩).2 = true) :
    (dns.perform service ⟨.removeTxt handle, error⟩).1.zone =
      match (removePlan dns.published handle).2 with
      | .noop => dns.zone
      | .delete _ => Function.update dns.zone handle.name none
      | .upsert values =>
          Function.update dns.zone handle.name (some (values.image record)) := by
  simp only [Route53Dns.perform, Route53Dns.removeTxt] at returned ⊢
  generalize removePlan dns.published handle = planned at returned ⊢
  obtain ⟨published, plan⟩ := planned
  cases plan with
  | noop => rfl
  | delete values =>
      dsimp only at returned ⊢
      split at returned
      · cases returned
      · rename_i next applied
        exact documented.delete _ _ _ _ (change_of_apply applied)
  | upsert values =>
      dsimp only at returned ⊢
      split at returned
      · cases returned
      · rename_i next applied
        exact documented.upsert _ _ _ _ (change_of_apply applied)

/-! ## The memory -/

/-- The memory holds the live and the failed values, and no empty sets. -/
structure Tracked (observed : Observed) : Prop where
  memory : ∀ name, (observed.dns.published.get name).getD ∅ =
    observed.live name ∪ observed.failed name
  apart : ∀ name, Disjoint (observed.live name) (observed.failed name)
  nonempty : ∀ name, observed.dns.published.get name ≠ some ∅

theorem tracked_initial : Tracked .initial where
  memory := fun _ => (Finset.union_empty ∅).symm
  apart := fun _ => Finset.disjoint_empty_left ∅
  nonempty := fun _ stored => by cases stored

/-- Only the name of the call matters: the rest of the memory is kept. -/
theorem Tracked.after_of_name
    {observed : Observed} (tracked : Tracked observed) {call : Call}
    (framed : ∀ name, name ≠ call.request.name →
      (observed.dns.perform service call).1.published.get name =
        observed.dns.published.get name)
    (memory : ((observed.dns.perform service call).1.published.get
        call.request.name).getD ∅ =
      observed.liveAfter service call ∪ observed.failedAfter service call)
    (apart : Disjoint (observed.liveAfter service call) (observed.failedAfter service call))
    (nonempty : (observed.dns.perform service call).1.published.get
      call.request.name ≠ some ∅) :
    Tracked (observed.after service call) := by
  refine ⟨fun name => ?_, fun name => ?_, fun name => ?_⟩
  all_goals
    by_cases same : name = call.request.name
  · subst same
    simpa [Observed.after] using memory
  · simp only [Observed.after, Function.update_of_ne same, framed name same]
    exact tracked.memory name
  · subst same
    simpa [Observed.after] using apart
  · simp only [Observed.after, Function.update_of_ne same]
    exact tracked.apart name
  · subst same
    exact nonempty
  · simp only [Observed.after, framed name same]
    exact tracked.nonempty name

section Step

variable {observed : Observed}

theorem Tracked.after_addTxt
    (tracked : Tracked observed) (name value : Text) (error : Option Text) :
    Tracked (observed.after service ⟨.addTxt name value, error⟩) := by
  have memory := tracked.memory name
  have apart := tracked.apart name
  apply tracked.after_of_name
  · intro other differs
    rw [published_addTxt]
    exact HashMap.get_insert_of_ne _ _ differs
  · rw [published_addTxt]
    simp only [Observed.liveAfter, Observed.failedAfter, Request.name,
      HashMap.get_insert_self, Option.getD_some, memory]
    split_ifs with accepted
    · ext other
      simp only [Finset.mem_insert, Finset.mem_union, Finset.mem_erase]
      tauto
    · ext other
      simp only [Finset.mem_insert, Finset.mem_union, Finset.mem_sdiff]
      tauto
  · simp only [Observed.liveAfter, Observed.failedAfter, Request.name]
    split_ifs with accepted
    · rw [Finset.disjoint_insert_left]
      exact ⟨Finset.notMem_erase value _,
        apart.mono_right (Finset.erase_subset value _)⟩
    · exact Finset.disjoint_sdiff
  · rw [published_addTxt]
    simp only [Request.name, HashMap.get_insert_self, ne_eq, Option.some_inj]
    exact Finset.insert_ne_empty _ _

theorem Tracked.after_removeTxt
    (tracked : Tracked observed) (handle : TxtHandle)
    (error : Option Text) :
    Tracked (observed.after service ⟨.removeTxt handle, error⟩) := by
  have memory := tracked.memory handle.name
  have apart := tracked.apart handle.name
  have stillApart : Disjoint
      (observed.liveAfter service ⟨.removeTxt handle, error⟩)
      (observed.failedAfter service ⟨.removeTxt handle, error⟩) :=
    (apart.mono_left (Finset.erase_subset _ _)).mono_right
      (Finset.erase_subset _ _)
  have union : observed.liveAfter service ⟨.removeTxt handle, error⟩ ∪
        observed.failedAfter service ⟨.removeTxt handle, error⟩ =
      ((observed.dns.published.get handle.name).getD ∅).erase
        handle.value := by
    rw [memory, Finset.erase_union_distrib]
    rfl
  cases stored : observed.dns.published.get handle.name with
  | none =>
      have kept := @perform_removeTxt_of_none service _ _ stored error
      apply tracked.after_of_name _ _ stillApart
      · rw [kept]
        exact tracked.nonempty handle.name
      · intro other differs
        rw [kept]
      · rw [kept, union]
        simp [Request.name, stored]
  | some set =>
      rw [stored, Option.getD_some] at union
      by_cases last : set.erase handle.value = ∅
      · -- Whether or not the request succeeds, the name is forgotten.
        have planned := removePlan_of_last stored last
        apply tracked.after_of_name _ _ stillApart
        · rw [published_removeTxt, planned]
          simp [Request.name]
        · intro other differs
          rw [published_removeTxt, planned]
          exact HashMap.get_remove_of_ne _ differs
        · rw [published_removeTxt, planned, union, last]
          simp [Request.name]
      · have planned := removePlan_of_more stored last
        apply tracked.after_of_name _ _ stillApart
        · rw [published_removeTxt, planned]
          simpa [Request.name] using last
        · intro other differs
          rw [published_removeTxt, planned]
          exact HashMap.get_insert_of_ne _ _ differs
        · rw [published_removeTxt, planned, union]
          simp [Request.name]

/-- Every call keeps the memory in step with the accounts. -/
theorem Tracked.after (tracked : Tracked observed) (call : Call) :
    Tracked (observed.after service call) := by
  obtain ⟨request, error⟩ := call
  cases request with
  | addTxt name value => exact tracked.after_addTxt name value error
  | removeTxt handle => exact tracked.after_removeTxt handle error

theorem Tracked.holdsLive_addTxt_iff
    (documented : service.Documented) (tracked : Tracked observed)
    (name value : Text) (error : Option Text) :
    HoldsLive service observed ⟨.addTxt name value, error⟩ ↔
      NothingLeft service observed ⟨.addTxt name value, error⟩ := by
  have memory := tracked.memory name
  have apart := tracked.apart name
  rw [HoldsLive, NothingLeft]
  apply forall_congr'
  intro returned
  simp only [Observed.after, Observed.liveAfter, zone_addTxt documented
    returned, returned, Request.name, Request.value, if_true,
    Function.update_self, and_true, memory]
  rw [recordSet_eq_some_iff (Finset.insert_nonempty _ _),
    Finset.subset_singleton_iff']
  constructor
  · intro same other failed
    have present : other ∈ insert value (observed.live name) := by
      rw [← same]
      exact Finset.mem_insert_of_mem (Finset.mem_union_right _ failed)
    rcases Finset.mem_insert.mp present with rfl | live
    · rfl
    · exact absurd failed (Finset.disjoint_left.mp apart live)
  · intro only
    ext other
    simp only [Finset.mem_insert, Finset.mem_union]
    constructor
    · rintro (same | live | failed)
      · exact Or.inl same
      · exact Or.inr live
      · exact Or.inl (only other failed)
    · rintro (same | live)
      · exact Or.inl same
      · exact Or.inr (Or.inl live)

theorem Tracked.holdsLive_removeTxt_iff
    (documented : service.Documented) (tracked : Tracked observed)
    (handle : TxtHandle) (error : Option Text) :
    HoldsLive service observed ⟨.removeTxt handle, error⟩ ↔
      NothingLeft service observed ⟨.removeTxt handle, error⟩ := by
  have memory := tracked.memory handle.name
  have apart := tracked.apart handle.name
  rw [HoldsLive, NothingLeft]
  apply forall_congr'
  intro returned
  simp only [Observed.after, Observed.liveAfter, Request.name, Request.value,
    Function.update_self]
  cases stored : observed.dns.published.get handle.name with
  | none =>
      rw [stored, Option.getD_none, eq_comm, Finset.union_eq_empty] at memory
      rw [perform_removeTxt_of_none stored, memory.1, memory.2]
      simp [recordSet]
  | some set =>
      rw [stored, Option.getD_some] at memory
      rw [zone_removeTxt documented returned]
      by_cases last : set.erase handle.value = ∅
      · have only : observed.live handle.name ∪
            observed.failed handle.name ⊆ {handle.value} := by
          rw [← memory, ← Finset.sdiff_eq_empty_iff_subset,
            Finset.sdiff_singleton_eq_erase]
          exact last
        have none : (observed.live handle.name).erase handle.value = ∅ := by
          rw [← Finset.sdiff_singleton_eq_erase,
            Finset.sdiff_eq_empty_iff_subset]
          exact Finset.union_subset_left only
        rw [removePlan_of_last stored last]
        simp [recordSet, none, Finset.union_subset_right only]
      · rw [removePlan_of_more stored last]
        simp only [Function.update_self, reduceCtorEq, false_implies,
          and_true]
        rw [recordSet_eq_some_iff (Finset.nonempty_iff_ne_empty.mpr last),
          memory, Finset.subset_singleton_iff']
        constructor
        · intro same other failed
          by_contra differs
          have present : other ∈ (observed.live handle.name).erase
              handle.value := by
            rw [← same]
            exact Finset.mem_erase.mpr
              ⟨differs, Finset.mem_union_right _ failed⟩
          exact Finset.disjoint_left.mp apart (Finset.mem_of_mem_erase present)
            failed
        · intro only
          ext other
          simp only [Finset.mem_erase, Finset.mem_union]
          constructor
          · rintro ⟨differs, live | failed⟩
            · exact ⟨differs, live⟩
            · exact absurd (only other failed) differs
          · rintro ⟨differs, live⟩
            exact ⟨differs, Or.inl live⟩

/-- A call that returns `Ok` leaves the live values exactly if nothing is left. -/
theorem Tracked.holdsLive_iff
    (documented : service.Documented) (tracked : Tracked observed)
    (call : Call) :
    HoldsLive service observed call ↔ NothingLeft service observed call := by
  obtain ⟨request, error⟩ := call
  cases request with
  | addTxt name value =>
      exact tracked.holdsLive_addTxt_iff documented name value error
  | removeTxt handle =>
      exact tracked.holdsLive_removeTxt_iff documented handle error

end Step

/-! ## Every sequence of calls -/

instance (observed : Observed) (call : Call) :
    Decidable (NothingLeft service observed call) :=
  match call with
  | ⟨.addTxt _ _, _⟩ => inferInstanceAs (Decidable (_ → _ ∧ True))
  | ⟨.removeTxt _, _⟩ => inferInstanceAs (Decidable (_ → _ ∧ (_ → _)))

/--
Along every sequence of calls, with any of their requests failing, each call
that returns `Ok` leaves exactly the live values at its name if and only if
nothing is left there from the failed calls before.
-/
theorem throughout_holdsLive_iff
    (service : Service) (documented : service.Documented)
    (calls : List Call) :
    Machine.Throughout
        (fun observed call => some (observed.after service call))
        (HoldsLive service) .initial calls ↔
      Machine.Throughout
        (fun observed call => some (observed.after service call))
        (NothingLeft service) .initial calls := by
  have kept : ∀ observed call next, Tracked observed →
      some (Observed.after service observed call) = some next →
      Tracked next := by
    intro observed call next tracked taken
    cases taken
    exact tracked.after call
  constructor
  · exact Machine.Throughout.imp_of_invariant
      (fun _ call tracked => (tracked.holdsLive_iff documented call).mp)
      (fun _ call next tracked _ => kept _ call next tracked) tracked_initial
  · exact Machine.Throughout.imp_of_invariant
      (fun _ call tracked => (tracked.holdsLive_iff documented call).mpr)
      (fun _ call next tracked _ => kept _ call next tracked) tracked_initial

/-- A service that deletes a record set only if it is given as it stands. -/
def strictService : Service where
  change zone action name records :=
    match action with
    | .upsert => .ok (Function.update zone name (some records))
    | .delete =>
        if zone name = some records then .ok (Function.update zone name none)
        else .error "InvalidChangeBatch".toList

theorem strictService_documented : strictService.Documented where
  upsert := by
    rintro zone name records next ⟨⟩
    rfl
  delete := by
    intro zone name records next accepted
    simp only [strictService] at accepted
    split_ifs at accepted
    cases accepted
    rfl

/-- Two values at one name, one of them added again after a failure. -/
def publishingCalls : List Call :=
  [⟨.addTxt "n".toList "v1".toList, some "timeout".toList⟩,
    ⟨.addTxt "n".toList "v1".toList, none⟩,
    ⟨.addTxt "n".toList "v2".toList, none⟩,
    ⟨.removeTxt ⟨"n".toList, "v1".toList, []⟩, none⟩,
    ⟨.removeTxt ⟨"n".toList, "v2".toList, []⟩, none⟩]

theorem throughout_holdsLive_publishingCalls :
    Machine.Throughout
      (fun observed call => some (observed.after strictService call))
      (HoldsLive strictService) .initial publishingCalls := by
  rw [throughout_holdsLive_iff strictService strictService_documented]
  decide

/-- A failed `add_txt` is published by the next one. -/
theorem not_holdsLive_failedAdd :
    ¬ Machine.Throughout
        (fun observed call => some (observed.after strictService call))
        (HoldsLive strictService) .initial
        [⟨.addTxt "n".toList "v1".toList, some "timeout".toList⟩,
          ⟨.addTxt "n".toList "v2".toList, none⟩] := by
  intro throughout
  have left := ((tracked_initial.after _).holdsLive_iff
    strictService_documented _).mp (throughout.2 _ rfl).1
  have only := (left rfl).1
  simp only [Request.name, Request.value] at only
  revert only
  decide

/-- A failed deletion is never tried again. -/
example :
    ¬ Machine.Throughout
        (fun observed call => some (observed.after strictService call))
        (HoldsLive strictService) .initial
        [⟨.addTxt "n".toList "v".toList, none⟩,
          ⟨.removeTxt ⟨"n".toList, "v".toList, []⟩, some "timeout".toList⟩,
          ⟨.removeTxt ⟨"n".toList, "v".toList, []⟩, none⟩] := by
  intro throughout
  have holds := ((throughout.2 _ rfl).2 _ rfl).1 (by decide)
  exact absurd holds (by decide)

end LightWaf.Tls.Route53
