import TtsServer.Lib.Runs
import Mathlib.Data.UInt
import Mathlib.Logic.Function.Basic

/-!
# Synchronous delivery on the event bus

`EventBus` keeps the listeners of each event type in a bucket, and a `ScopedSubscription`
removes its listener when it is reset, destroyed or assigned to. `publish_sync` copies the
bucket and calls the listeners of the copy without any lock, so that listeners may use the
bus themselves.

What the owners of the subscriptions know is kept beside the bus: which subscriptions they
have made and not reset yet, and which variable holds which of them. A run is any sequence
of actions. What a listener does stands between the call of it and the next call of its
dispatch, so the steps of several dispatches may alternate in any way.
-/

namespace TtsServer

/-- `EventBus::Slot`; `fn` is the listener, named by the number of its subscription. -/
structure Slot where
  fn : ℕ
  id : UInt64
  deriving DecidableEq, Repr

/-- The registry of `EventBus`; a type without a bucket has no slots. -/
structure EventBus (T : Type) where
  slots : T → List Slot := fun _ => []
  nextId : UInt64 := 1

/-- `ScopedSubscription`: whether it refers to a bus, and its identifier. -/
structure ScopedSubscription where
  bus : Bool := false
  id : UInt64 := 0
  deriving DecidableEq, Repr

variable {T : Type} [DecidableEq T]

namespace EventBus

/-- `subscribe_erased`: the bus and the identifier of the subscription. -/
def subscribeErased (bus : EventBus T) (type : T) (fn : ℕ) : EventBus T × UInt64 :=
  ({ slots := Function.update bus.slots type (bus.slots type ++ [⟨fn, bus.nextId⟩])
     nextId := bus.nextId + 1 }, bus.nextId)

/-- `unsubscribe`: the slots with the identifier leave every bucket. -/
def unsubscribe (bus : EventBus T) (id : UInt64) : EventBus T :=
  { bus with slots := fun type => (bus.slots type).filter (·.id ≠ id) }

end EventBus

/-- What the owners know: the subscriptions made so far, those that have not been reset in
the order in which they were made, and the variables that hold them. -/
structure Subscriptions (T : Type) where
  made : ℕ := 0
  live : List (ℕ × T) := []
  owner : ℕ → Option ℕ := fun _ => none

namespace Subscriptions

/-- The subscriptions that have not been reset. -/
def active (subs : Subscriptions T) : List ℕ :=
  subs.live.map Prod.fst

/-- The subscriptions for a type of events. -/
def listening (subs : Subscriptions T) (type : T) : List ℕ :=
  (subs.live.filter (·.2 = type)).map Prod.fst

/-- A new subscription, held by a variable. -/
def subscribe (subs : Subscriptions T) (type : T) (handle : ℕ) : Subscriptions T where
  made := subs.made + 1
  live := subs.live ++ [(subs.made, type)]
  owner := Function.update subs.owner handle (some subs.made)

/-- The subscription held by a variable ends. -/
def reset (subs : Subscriptions T) (handle : ℕ) : Subscriptions T :=
  { subs with
    live := subs.live.filter (some ·.1 ≠ subs.owner handle)
    owner := Function.update subs.owner handle none }

/-- One variable takes over what another one holds. -/
def take (subs : Subscriptions T) (handle other : ℕ) : Subscriptions T :=
  { subs with
    owner := Function.update (Function.update subs.owner handle (subs.owner other)) other none }

end Subscriptions

/-- A `publish_sync`: the part of its snapshot that it has not called yet, the listeners that
were subscribed when it began, and those it has called. -/
structure SyncDispatch where
  remaining : List Slot
  due : List ℕ
  called : List ℕ := []
  deriving DecidableEq, Repr

/-- A dispatch goes through the listeners that were subscribed when it began, in the order of
their subscriptions, and those before it are still subscribed. -/
structure SyncDispatch.Sound (active : List ℕ) (d : SyncDispatch) : Prop where
  due_eq : d.due = d.called ++ d.remaining.map Slot.fn
  sorted : d.due.Pairwise (· < ·)
  active : ∀ slot ∈ d.remaining, slot.fn ∈ active

/-- A dispatch stays sound as long as the listeners before it stay subscribed. -/
theorem SyncDispatch.Sound.mono {active active' : List ℕ} {d : SyncDispatch} (h : d.Sound active)
    (hactive : ∀ slot ∈ d.remaining, slot.fn ∈ active → slot.fn ∈ active') : d.Sound active' :=
  ⟨h.due_eq, h.sorted, fun slot hslot => hactive slot hslot (h.active slot hslot)⟩

/-- The bus, the variables of type `ScopedSubscription`, what the owners know, and the
dispatches so far. -/
structure BusHistory (T : Type) where
  bus : EventBus T := {}
  handles : ℕ → ScopedSubscription := fun _ => {}
  subs : Subscriptions T := {}
  dispatches : List SyncDispatch := []

/-- The actions of the program, which may be those of listeners. -/
inductive BusAction (T : Type) where
  /-- `ScopedSubscription handle = bus.subscribe(...)`. -/
  | subscribe (type : T) (handle : ℕ)
  /-- `handle.reset()`, or the destruction of the variable. -/
  | reset (handle : ℕ)
  /-- `ScopedSubscription handle = std::move(other)`. -/
  | moveConstruct (handle other : ℕ)
  /-- `handle = std::move(other)`. -/
  | moveAssign (handle other : ℕ)
  /-- A `publish_sync` takes its snapshot. -/
  | publish (type : T)
  /-- A dispatch calls its next listener. -/
  | call (k : ℕ)
  /-- The `publish_sync` of a dispatch returns. -/
  | finish (k : ℕ)
  deriving DecidableEq, Repr

namespace BusHistory

/-- `ScopedSubscription handle = bus.subscribe(...)`. -/
def subscribe (s : BusHistory T) (type : T) (handle : ℕ) : BusHistory T :=
  { s with
    bus := (s.bus.subscribeErased type s.subs.made).1
    handles := Function.update s.handles handle
      ⟨true, (s.bus.subscribeErased type s.subs.made).2⟩
    subs := s.subs.subscribe type handle }

/-- `ScopedSubscription::reset`. For the owner the subscription ends in any case. -/
def reset (s : BusHistory T) (handle : ℕ) : BusHistory T :=
  if (s.handles handle).bus ∧ (s.handles handle).id ≠ 0 then
    { s with
      bus := s.bus.unsubscribe (s.handles handle).id
      handles := Function.update s.handles handle {}
      subs := s.subs.reset handle }
  else { s with subs := s.subs.reset handle }

/-- The members of one variable are taken over by another one and cleared. -/
def take (s : BusHistory T) (handle other : ℕ) : BusHistory T :=
  { s with
    handles := Function.update (Function.update s.handles handle (s.handles other)) other {}
    subs := s.subs.take handle other }

/-- `dispatch_sync` up to its loop: the snapshot of the bucket. -/
def publish (s : BusHistory T) (type : T) : BusHistory T :=
  { s with dispatches := s.dispatches ++ [⟨s.bus.slots type, s.subs.listening type, []⟩] }

/-- One action. A variable is constructed only where none holds a subscription. -/
def step (s : BusHistory T) : BusAction T → BusHistory T
  | .subscribe type handle => if (s.handles handle).bus then s else s.subscribe type handle
  | .reset handle => s.reset handle
  | .moveConstruct handle other =>
    if (s.handles handle).bus ∨ handle = other then s else s.take handle other
  | .moveAssign handle other => if handle = other then s else (s.reset handle).take handle other
  | .publish type => s.publish type
  | .call k =>
    match s.dispatches[k]? with
    | some ⟨slot :: remaining, due, called⟩ =>
      { s with dispatches := s.dispatches.set k ⟨remaining, due, called ++ [slot.fn]⟩ }
    | _ => s
  | .finish _ => s

/-- The state after a sequence of actions. -/
def run (actions : List (BusAction T)) : BusHistory T :=
  actions.foldl step {}

/-! ### The law of delivery -/

/-- The law at one action. A listener is called while it is subscribed, if it was subscribed
to the type of the event when the dispatch began, and after those subscribed before it; and
when the dispatch returns, every such listener that is still subscribed has been called. -/
def Delivers (s : BusHistory T) : BusAction T → Prop
  | .call k => ∀ slot remaining due called,
    s.dispatches[k]? = some ⟨slot :: remaining, due, called⟩ →
      slot.fn ∈ s.subs.active ∧ slot.fn ∈ due ∧ ∀ fn ∈ called, fn < slot.fn
  | .finish k => ∀ due called, s.dispatches[k]? = some ⟨[], due, called⟩ →
    ∀ fn ∈ due, fn ∈ s.subs.active → fn ∈ called
  | _ => True

/-- The identifier drawn next is not zero and not in use. -/
def FreshId (s : BusHistory T) : Prop :=
  s.bus.nextId ≠ 0 ∧ ∀ type, ∀ slot ∈ s.bus.slots type, slot.id ≠ s.bus.nextId

/-- No dispatch still has the listener of the variable's subscription ahead. -/
def Unawaited (s : BusHistory T) (handle : ℕ) : Prop :=
  ∀ fn, s.subs.owner handle = some fn → ∀ d ∈ s.dispatches, ∀ slot ∈ d.remaining, slot.fn ≠ fn

/-- Subscriptions end when no dispatch is about to call their listeners, and begin with
identifiers that are not in use. -/
def Undisturbed (s : BusHistory T) : BusAction T → Prop
  | .subscribe _ handle => (s.handles handle).bus = false → s.FreshId
  | .reset handle => s.Unawaited handle
  | .moveAssign handle other => handle ≠ other → s.Unawaited handle
  | _ => True

/-! ### The bus and its owners agree -/

/-- A variable holds the identifier of the subscription that its owner has in it. -/
def Held (bus : EventBus T) (handle : ScopedSubscription) : Option ℕ → Prop
  | none => handle = {}
  | some fn => ∃ type id, ⟨fn, id⟩ ∈ bus.slots type ∧ handle = ⟨true, id⟩ ∧ id ≠ 0

/-- The buckets hold the active subscriptions in order, identifiers stand for listeners, and
the variables hold what their owners have in them. -/
structure Consistent (s : BusHistory T) : Prop where
  slots_eq : ∀ type, (s.bus.slots type).map Slot.fn = s.subs.listening type
  ids : ∀ type type', ∀ a ∈ s.bus.slots type, ∀ b ∈ s.bus.slots type', a.id = b.id ↔ a.fn = b.fn
  held : ∀ handle, Held s.bus (s.handles handle) (s.subs.owner handle)
  owner_inj : ∀ handle handle' fn, s.subs.owner handle = some fn →
    s.subs.owner handle' = some fn → handle = handle'
  sorted : s.subs.active.Pairwise (· < ·)
  made : ∀ fn ∈ s.subs.active, fn < s.subs.made
  dispatched : ∀ d ∈ s.dispatches, d.Sound s.subs.active

end BusHistory

/-! What the operations do to the owners' view. -/

namespace Subscriptions

variable {subs : Subscriptions T} {type : T} {handle fn : ℕ}

/-- The subscriptions for a type are among all, in order. -/
theorem listening_sublist : (subs.listening type).Sublist subs.active :=
  List.filter_sublist.map _

/-- A subscription for a type has not been reset. -/
theorem listening_subset (h : fn ∈ subs.listening type) : fn ∈ subs.active :=
  listening_sublist.subset h

omit [DecidableEq T] in
/-- Subscribing adds the new subscription at the end. -/
theorem active_subscribe : (subs.subscribe type handle).active = subs.active ++ [subs.made] := by
  simp [active, subscribe]

/-- It does so among the subscriptions for its type. -/
theorem listening_subscribe_self :
    (subs.subscribe type handle).listening type = subs.listening type ++ [subs.made] := by
  simp [listening, subscribe]

/-- The subscriptions for other types stay as they are. -/
theorem listening_subscribe_of_ne {type' : T} (h : type' ≠ type) :
    (subs.subscribe type handle).listening type' = subs.listening type' := by
  simp [listening, subscribe, h.symm]

omit [DecidableEq T] in
/-- A reset removes the subscription that the variable holds, and no other. -/
theorem active_reset :
    (subs.reset handle).active = subs.active.filter (some · ≠ subs.owner handle) := by
  simp [active, reset, List.filter_map, Function.comp_def]

/-- It does so among the subscriptions for a type. -/
theorem listening_reset :
    (subs.reset handle).listening type =
      (subs.listening type).filter (some · ≠ subs.owner handle) := by
  simp only [listening, reset, List.filter_map, List.filter_filter, Function.comp_def,
    Bool.and_comm]

omit [DecidableEq T] in
/-- After a reset the subscription that the variable held is gone. -/
theorem not_mem_active_reset (h : subs.owner handle = some fn) :
    fn ∉ (subs.reset handle).active := by
  simp [active_reset, h]

omit [DecidableEq T] in
/-- Resetting a variable that holds nothing changes nothing. -/
theorem reset_of_owner_none (h : subs.owner handle = none) : subs.reset handle = subs := by
  have howner : Function.update subs.owner handle none = subs.owner := by
    rw [← h, Function.update_eq_self]
  simp [reset, h, howner]

end Subscriptions

namespace BusHistory

variable {s : BusHistory T} {type : T} {handle other k fn : ℕ}

/-- An empty bus and its owners agree. -/
theorem consistent_empty : Consistent ({} : BusHistory T) := by
  constructor <;> simp [Subscriptions.listening, Subscriptions.active, Held]

/-- The listener of a slot is subscribed to the type of the bucket. -/
theorem Consistent.mem_listening (hc : s.Consistent) {slot : Slot}
    (h : slot ∈ s.bus.slots type) : slot.fn ∈ s.subs.listening type := by
  rw [← hc.slots_eq]
  exact List.mem_map_of_mem h

/-- Every slot belongs to a subscription that has been made. -/
theorem Consistent.fn_lt_made (hc : s.Consistent) {slot : Slot}
    (h : slot ∈ s.bus.slots type) : slot.fn < s.subs.made :=
  hc.made _ (Subscriptions.listening_subset (hc.mem_listening h))

/-- Every variable holds a subscription that has been made. -/
theorem Consistent.owner_lt_made (hc : s.Consistent) (h : s.subs.owner handle = some fn) :
    fn < s.subs.made := by
  have hheld := hc.held handle
  rw [h] at hheld
  obtain ⟨_, _, hslot, _⟩ := hheld
  exact hc.fn_lt_made hslot

omit [DecidableEq T] in
/-- Both maps of variables change at one place. -/
theorem held_update {bus : EventBus T} {handles : ℕ → ScopedSubscription} {owner : ℕ → Option ℕ}
    {value : ScopedSubscription} {own : Option ℕ} (h : ∀ handle', handle' ≠ handle →
      Held bus (handles handle') (owner handle')) (hnew : Held bus value own) (handle' : ℕ) :
    Held bus (Function.update handles handle value handle')
      (Function.update owner handle own handle') := by
  by_cases heq : handle' = handle
  · subst heq
    simpa using hnew
  · simpa [heq] using h handle' heq

omit [DecidableEq T] in
/-- What a variable holds stays held when its slot stays. -/
theorem Held.mono {bus bus' : EventBus T} {value : ScopedSubscription} {own : Option ℕ}
    (h : Held bus value own)
    (hslots : ∀ fn type id, own = some fn → ⟨fn, id⟩ ∈ bus.slots type →
      ⟨fn, id⟩ ∈ bus'.slots type) :
    Held bus' value own := by
  cases own with
  | none => exact h
  | some fn =>
    obtain ⟨type, id, hslot, hvalue⟩ := h
    exact ⟨type, id, hslots fn type id rfl hslot, hvalue⟩

/-! ### Each action keeps them in agreement -/

/-- Subscribing adds one slot, under the next id. -/
theorem mem_slots_subscribe {type' : T} {slot : Slot} :
    slot ∈ (s.subscribe type handle).bus.slots type' ↔
      slot ∈ s.bus.slots type' ∨ type' = type ∧ slot = ⟨s.subs.made, s.bus.nextId⟩ := by
  by_cases h : type' = type
  · subst h
    simp [subscribe, EventBus.subscribeErased]
  · simp [subscribe, EventBus.subscribeErased, h]

/-- The slots follow the subscriptions when one is added. -/
theorem Consistent.slots_eq_subscribe (hc : s.Consistent) (type' : T) :
    ((s.subscribe type handle).bus.slots type').map Slot.fn =
      (s.subs.subscribe type handle).listening type' := by
  by_cases h : type' = type
  · subst h
    simp [subscribe, EventBus.subscribeErased, Subscriptions.listening_subscribe_self, hc.slots_eq]
  · simp [subscribe, EventBus.subscribeErased, h, Subscriptions.listening_subscribe_of_ne,
      hc.slots_eq]

/-- A new slot agrees with an old one in neither part. -/
theorem Consistent.new_slot (hc : s.Consistent) (hfresh : s.FreshId) {slot : Slot}
    (h : slot ∈ s.bus.slots type) : slot.id ≠ s.bus.nextId ∧ slot.fn ≠ s.subs.made :=
  ⟨hfresh.2 type slot h, (hc.fn_lt_made h).ne⟩

/-- Subscribing keeps the bus and its owners in agreement if the id is fresh. -/
theorem Consistent.subscribe (hc : s.Consistent) (hfresh : s.FreshId) :
    (s.subscribe type handle).Consistent where
  slots_eq := hc.slots_eq_subscribe
  ids := by
    intro type₁ type₂ a ha b hb
    rw [mem_slots_subscribe] at ha hb
    rcases ha with ha | ⟨-, rfl⟩ <;> rcases hb with hb | ⟨-, rfl⟩
    · exact hc.ids _ _ a ha b hb
    · simp [hc.new_slot hfresh ha]
    · simp [(hc.new_slot hfresh hb).1.symm, (hc.new_slot hfresh hb).2.symm]
    · simp
  held := held_update
    (fun handle' _ => (hc.held handle').mono fun _ _ _ _ h => mem_slots_subscribe.mpr (.inl h))
    ⟨type, s.bus.nextId, mem_slots_subscribe.mpr (.inr ⟨rfl, rfl⟩), rfl, hfresh.1⟩
  owner_inj := by
    have hnew : ∀ handle', s.subs.owner handle' ≠ some s.subs.made := fun _ h =>
      (hc.owner_lt_made h).false
    intro handle₁ handle₂ fn h₁ h₂
    simp only [BusHistory.subscribe, Subscriptions.subscribe, Function.update_apply] at h₁ h₂
    grind [hc.owner_inj handle₁ handle₂ fn]
  sorted := by
    change ((s.subs.subscribe type handle).active).Pairwise _
    rw [Subscriptions.active_subscribe, List.pairwise_append]
    exact ⟨hc.sorted, List.pairwise_singleton .., by simpa using hc.made⟩
  made := by
    change ∀ fn ∈ (s.subs.subscribe type handle).active, fn < s.subs.made + 1
    intro fn hfn
    rw [Subscriptions.active_subscribe, List.mem_append, List.mem_singleton] at hfn
    rcases hfn with hfn | rfl
    · exact (hc.made fn hfn).trans (Nat.lt_succ_self _)
    · exact Nat.lt_succ_self _
  dispatched := by
    intro d hd
    refine (hc.dispatched d hd).mono fun slot _ hslot => ?_
    change slot.fn ∈ (s.subs.subscribe type handle).active
    rw [Subscriptions.active_subscribe]
    exact List.mem_append_left _ hslot

/-- Resetting a variable that holds nothing does nothing to the bus. -/
theorem Consistent.reset_of_owner_none (hc : s.Consistent) (h : s.subs.owner handle = none) :
    s.reset handle = s := by
  have hheld := hc.held handle
  rw [h] at hheld
  simp only [Held] at hheld
  simp [reset, hheld, Subscriptions.reset_of_owner_none h]

/-- Resetting a variable with a subscription takes exactly its slot out of the buckets. -/
theorem Consistent.reset_eq (hc : s.Consistent) (h : s.subs.owner handle = some fn) :
    ∃ id, (s.reset handle).bus = s.bus.unsubscribe id ∧
      (s.reset handle).handles = Function.update s.handles handle {} ∧
      ∀ type, ∀ slot ∈ s.bus.slots type, slot.id ≠ id ↔ slot.fn ≠ fn := by
  have hheld := hc.held handle
  rw [h] at hheld
  obtain ⟨type, id, hslot, hvalue, hid⟩ := hheld
  refine ⟨id, ?_, ?_, fun type' slot' hslot' => not_congr (hc.ids _ _ _ hslot' _ hslot)⟩
  · simp [BusHistory.reset, hvalue, hid]
  · simp [BusHistory.reset, hvalue, hid]

omit [DecidableEq T] in
/-- For the owners a reset ends the subscription. -/
@[simp] theorem reset_subs : (s.reset handle).subs = s.subs.reset handle := by
  unfold reset
  split <;> rfl

omit [DecidableEq T] in
/-- A reset leaves the dispatches that are under way alone. -/
@[simp] theorem reset_dispatches : (s.reset handle).dispatches = s.dispatches := by
  unfold reset
  split <;> rfl

/-- A reset keeps the agreement if no dispatch is yet to call the listener. -/
theorem Consistent.reset (hc : s.Consistent) (hquiet : s.Unawaited handle) :
    (s.reset handle).Consistent := by
  cases hown : s.subs.owner handle with
  | none => rwa [hc.reset_of_owner_none hown]
  | some fn =>
    obtain ⟨id, hbus, hhandles, hid⟩ := hc.reset_eq hown
    have hslot : ∀ type slot, slot ∈ (s.reset handle).bus.slots type ↔
        slot ∈ s.bus.slots type ∧ slot.fn ≠ fn := by
      intro type slot
      simp only [hbus, EventBus.unsubscribe, List.mem_filter, decide_eq_true_eq]
      exact and_congr_right fun h => hid type slot h
    refine
      { slots_eq := fun type => ?_
        ids := fun type₁ type₂ a ha b hb =>
          hc.ids type₁ type₂ a ((hslot _ _).mp ha).1 b ((hslot _ _).mp hb).1
        held := ?_
        owner_inj := ?_
        sorted := ?_
        made := ?_
        dispatched := fun d hd => ?_ }
    · rw [reset_subs, Subscriptions.listening_reset, ← hc.slots_eq, hown, hbus]
      simp only [EventBus.unsubscribe, List.filter_map, Function.comp_def]
      congr 1
      refine List.filter_congr fun slot hslot => ?_
      simpa only [ne_eq, Option.some.injEq, decide_eq_decide] using hid type slot hslot
    · rw [hhandles, reset_subs]
      refine held_update (fun handle' hne => (hc.held handle').mono ?_) rfl
      intro fn' type id' hown' hslot'
      refine (hslot type _).mpr ⟨hslot', ?_⟩
      rintro rfl
      exact hne (hc.owner_inj _ _ _ hown' hown)
    · intro handle₁ handle₂ fn' h₁ h₂
      simp only [reset_subs, Subscriptions.reset, Function.update_apply] at h₁ h₂
      grind [hc.owner_inj handle₁ handle₂ fn']
    · rw [reset_subs, Subscriptions.active_reset]
      exact hc.sorted.filter _
    · rw [reset_subs, Subscriptions.active_reset]
      exact fun fn' hfn' => hc.made fn' (List.mem_of_mem_filter hfn')
    · rw [reset_dispatches] at hd
      refine (hc.dispatched d hd).mono fun slot hslot hactive => ?_
      rw [reset_subs, Subscriptions.active_reset, hown]
      simp [hactive, hquiet fn hown d hd slot hslot]

/-- Moving a subscription keeps the agreement. -/
theorem Consistent.take (hc : s.Consistent) : (s.take handle other).Consistent :=
  { hc with
    held := held_update
      (fun handle' _ => held_update (fun handle' _ => hc.held handle') (hc.held other) handle') rfl
    owner_inj := by
      intro handle₁ handle₂ fn h₁ h₂
      simp only [BusHistory.take, Subscriptions.take, Function.update_apply] at h₁ h₂
      grind [hc.owner_inj] }

/-- Taking a snapshot keeps the agreement. -/
theorem Consistent.publish (hc : s.Consistent) : (s.publish type).Consistent :=
  { hc with
    dispatched := by
      intro d hd
      rcases List.mem_append.mp hd with hd | hd
      · exact hc.dispatched d hd
      · obtain rfl := List.mem_singleton.mp hd
        exact ⟨by simp [hc.slots_eq], hc.sorted.sublist Subscriptions.listening_sublist,
          fun slot hslot => Subscriptions.listening_subset (hc.mem_listening hslot)⟩ }

/-- Calling the next listener of a dispatch keeps the agreement. -/
theorem Consistent.call (hc : s.Consistent) : (s.step (.call k)).Consistent := by
  simp only [step]
  split
  case h_1 slot remaining due called hd =>
    have hsound := hc.dispatched _ (List.mem_of_getElem? hd)
    refine { hc with dispatched := fun d' hd' => ?_ }
    rcases List.mem_or_eq_of_mem_set hd' with hd' | rfl
    · exact hc.dispatched d' hd'
    · exact ⟨by simpa using hsound.due_eq, hsound.sorted,
        fun slot' hslot' => hsound.active slot' (List.mem_cons_of_mem _ hslot')⟩
  case h_2 => exact hc

/-- An undisturbed action keeps the bus and its owners in agreement. -/
theorem Consistent.step (hc : s.Consistent) {action : BusAction T}
    (h : s.Undisturbed action) : (s.step action).Consistent := by
  cases action with
  | subscribe type handle =>
    simp only [BusHistory.step]
    split
    · exact hc
    · next hbus => exact hc.subscribe (h (Bool.eq_false_iff.mpr hbus))
  | reset handle => exact hc.reset h
  | moveConstruct handle other =>
    simp only [BusHistory.step]
    split
    · exact hc
    · exact hc.take
  | moveAssign handle other =>
    simp only [BusHistory.step]
    split
    · exact hc
    · next hne => exact (hc.reset (h hne)).take
  | publish type => exact hc.publish
  | call k => exact hc.call
  | finish k => exact hc

/-- While the bus and its owners agree, every call and every return follows the law. -/
theorem Consistent.delivers (hc : s.Consistent) (action : BusAction T) : s.Delivers action := by
  cases action with
  | call k =>
    intro slot remaining due called hd
    obtain ⟨hdue, hsorted, hactive⟩ := hc.dispatched _ (List.mem_of_getElem? hd)
    simp only [List.map_cons] at hdue
    subst hdue
    refine ⟨hactive slot List.mem_cons_self, by simp, fun fn hfn => ?_⟩
    exact (List.pairwise_append.mp hsorted).2.2 fn hfn slot.fn List.mem_cons_self
  | finish k =>
    intro due called hd fn hfn _
    have hdue : due = called ++ [] := (hc.dispatched _ (List.mem_of_getElem? hd)).due_eq
    rwa [hdue, List.append_nil] at hfn
  | _ => trivial

/-! ### What a disturbance leads to -/

/-- Some undisturbed continuation breaks the law. -/
def Breakable (s : BusHistory T) : Prop :=
  ∃ actions, Lib.Along step Undisturbed s actions ∧ ¬ Lib.Along step Delivers s actions

/-- If the law can be broken after an undisturbed action, it can be broken from before it. -/
theorem Breakable.of_step (action : BusAction T) (hquiet : s.Undisturbed action)
    (h : (s.step action).Breakable) : s.Breakable := by
  obtain ⟨actions, hactions, hlaw⟩ := h
  exact ⟨action :: actions, ⟨hquiet, hactions⟩, fun hall => hlaw hall.2⟩

/-- An undisturbed action that does not follow the law breaks it. -/
theorem Breakable.of_not_delivers (action : BusAction T) (hquiet : s.Undisturbed action)
    (h : ¬ s.Delivers action) : s.Breakable :=
  ⟨[action], ⟨hquiet, trivial⟩, fun hall => h hall.1⟩

/-- A dispatch calls the first of its remaining slots. -/
theorem step_call {slot : Slot} {remaining : List Slot} {due called : List ℕ}
    (h : s.dispatches[k]? = some ⟨slot :: remaining, due, called⟩) :
    (s.step (.call k)).dispatches[k]? = some ⟨remaining, due, called ++ [slot.fn]⟩ ∧
      (s.step (.call k)).subs = s.subs := by
  obtain ⟨hk, -⟩ := List.getElem?_eq_some_iff.mp h
  have hstep : s.step (.call k) =
      { s with dispatches := s.dispatches.set k ⟨remaining, due, called ++ [slot.fn]⟩ } := by
    simp only [step, h]
  rw [hstep]
  exact ⟨List.getElem?_set_self hk, rfl⟩

/-- A dispatch that is about to call a listener that has been reset gets to it. -/
theorem breakable_of_stale {slot : Slot} {before after : List Slot} {due called : List ℕ}
    (h : s.dispatches[k]? = some ⟨before ++ slot :: after, due, called⟩)
    (hstale : slot.fn ∉ s.subs.active) : s.Breakable := by
  induction before generalizing s called with
  | nil => exact .of_not_delivers (.call k) trivial fun hlaw => hstale (hlaw _ _ _ _ h).1
  | cons _ before ih =>
    obtain ⟨hnext, hsubs⟩ := step_call h
    exact .of_step (.call k) trivial (ih hnext (by rwa [hsubs]))

/-- A dispatch whose snapshot lacks an active listener that is due returns without it. -/
theorem breakable_of_missing {remaining : List Slot} {due called : List ℕ}
    (h : s.dispatches[k]? = some ⟨remaining, due, called⟩) (hdue : fn ∈ due)
    (hactive : fn ∈ s.subs.active) (hmissing : fn ∉ called ++ remaining.map Slot.fn) :
    s.Breakable := by
  induction remaining generalizing s called with
  | nil =>
    refine .of_not_delivers (.finish k) trivial fun hlaw => hmissing ?_
    simpa using hlaw _ _ h fn hdue hactive
  | cons slot remaining ih =>
    obtain ⟨hnext, hsubs⟩ := step_call h
    exact .of_step (.call k) trivial (ih hnext (by rwa [hsubs]) (by simpa using hmissing))

/-- The dispatch that a `publish_sync` begins. -/
theorem publish_dispatches (s : BusHistory T) (type : T) :
    (s.publish type).dispatches[s.dispatches.length]? =
      some ⟨s.bus.slots type, s.subs.listening type, []⟩ := by
  simp [publish]

/-- A subscription that ends while a dispatch has its listener ahead. -/
theorem breakable_of_awaited {s' : BusHistory T} (h : ¬ s.Unawaited handle)
    (hdispatches : s'.dispatches = s.dispatches)
    (hactive : s'.subs.active = (s.subs.reset handle).active) : s'.Breakable := by
  simp only [Unawaited, not_forall, not_not] at h
  obtain ⟨fn, hown, d, hd, slot, hslot, rfl⟩ := h
  obtain ⟨k, hk⟩ := List.mem_iff_getElem?.mp hd
  obtain ⟨before, after, hsplit⟩ := List.append_of_mem hslot
  have hdispatch : s'.dispatches[k]? = some ⟨before ++ slot :: after, d.due, d.called⟩ := by
    rw [hdispatches, hk, ← hsplit]
  refine breakable_of_stale hdispatch ?_
  rw [hactive]
  exact Subscriptions.not_mem_active_reset hown

/-- The owner of a subscription that was just made may reset it. -/
theorem Consistent.unawaited_subscribe (hc : s.Consistent) :
    (s.subscribe type handle).Unawaited handle := by
  intro fn hown d hd slot hslot
  have hfn : s.subs.made = fn := by
    simpa [BusHistory.subscribe, Subscriptions.subscribe] using hown
  rw [← hfn]
  exact (hc.made _ ((hc.dispatched d hd).active slot hslot)).ne

/-- With identifier zero the slot of a new subscription outlives the subscription. -/
theorem breakable_of_zero (h : s.bus.nextId = 0) :
    (((s.subscribe type handle).reset handle).publish type).Breakable := by
  have hslots : ((s.subscribe type handle).reset handle).bus.slots type =
      s.bus.slots type ++ [⟨s.subs.made, s.bus.nextId⟩] := by
    simp [reset, subscribe, EventBus.subscribeErased, h]
  have hdispatch := publish_dispatches ((s.subscribe type handle).reset handle) type
  rw [hslots] at hdispatch
  refine breakable_of_stale hdispatch ?_
  rw [publish, reset_subs]
  exact Subscriptions.not_mem_active_reset (by simp [subscribe, Subscriptions.subscribe])

/-- With an identifier in use the end of a new subscription removes another slot as well. -/
theorem Consistent.breakable_of_used (hc : s.Consistent) (hzero : s.bus.nextId ≠ 0) {type' : T}
    {slot : Slot} (hslot : slot ∈ s.bus.slots type') (hid : slot.id = s.bus.nextId) :
    (((s.subscribe type handle).reset handle).publish type').Breakable := by
  have hbus : ((s.subscribe type handle).reset handle).bus =
      (s.subscribe type handle).bus.unsubscribe s.bus.nextId := by
    simp [BusHistory.reset, BusHistory.subscribe, EventBus.subscribeErased, hzero]
  have hother : some slot.fn ≠ (s.subscribe type handle).subs.owner handle := by
    simpa [BusHistory.subscribe, Subscriptions.subscribe] using (hc.fn_lt_made hslot).ne
  have hlistening : slot.fn ∈ ((s.subscribe type handle).reset handle).subs.listening type' := by
    rw [reset_subs, Subscriptions.listening_reset, List.mem_filter, decide_eq_true_eq]
    refine ⟨?_, hother⟩
    change slot.fn ∈ (s.subs.subscribe type handle).listening type'
    rw [← hc.slots_eq_subscribe]
    exact List.mem_map_of_mem (mem_slots_subscribe.mpr (.inl hslot))
  refine breakable_of_missing (publish_dispatches _ _) hlistening
    (Subscriptions.listening_subset hlistening) ?_
  rw [List.nil_append, hbus]
  rintro hmem
  obtain ⟨slot', hslot', hfn⟩ := List.mem_map.mp hmem
  simp only [EventBus.unsubscribe, List.mem_filter, decide_eq_true_eq] at hslot'
  obtain ⟨hslot', hid'⟩ := hslot'
  rcases mem_slots_subscribe.mp hslot' with hslot' | ⟨-, rfl⟩
  · exact hid' (((hc.ids _ _ _ hslot' _ hslot).mpr hfn).trans hid)
  · exact hid' rfl

/-- A disturbance breaks the law in some continuation. -/
theorem Consistent.breakable (hc : s.Consistent) {action : BusAction T}
    (h : ¬ s.Undisturbed action) : (s.step action).Breakable := by
  cases action with
  | subscribe type handle =>
    obtain ⟨hbus, hfresh⟩ := Classical.not_imp.mp h
    simp only [BusHistory.step, hbus, Bool.false_eq_true, if_false]
    -- the subscription is reset at once, which is undisturbed, and an event is published
    suffices ∃ type', (((s.subscribe type handle).reset handle).publish type').Breakable by
      obtain ⟨type', hbreak⟩ := this
      exact .of_step (.reset handle) hc.unawaited_subscribe
        (.of_step (.publish type') trivial hbreak)
    by_cases hzero : s.bus.nextId = 0
    · exact ⟨type, breakable_of_zero hzero⟩
    · simp only [FreshId, hzero, ne_eq, not_false_eq_true, true_and, not_forall, not_not] at hfresh
      obtain ⟨type', slot, hslot, hid⟩ := hfresh
      exact ⟨type', hc.breakable_of_used hzero hslot hid⟩
  | reset handle =>
    exact breakable_of_awaited h reset_dispatches (by rw [BusHistory.step, reset_subs])
  | moveAssign handle other =>
    obtain ⟨hne, hquiet⟩ := Classical.not_imp.mp h
    simp only [BusHistory.step, hne, if_false]
    exact breakable_of_awaited hquiet reset_dispatches
      (by simp [BusHistory.take, Subscriptions.take, Subscriptions.active])
  | _ => exact absurd trivial h

/-! ### Delivery -/

/-- Along every sequence of actions that is undisturbed each dispatch calls the listeners that
are subscribed to the type of its event when it begins and stay subscribed, once and in the
order of their subscriptions, and no listener whose subscription has been reset. Any next
action leaves that so in every undisturbed continuation only if it is undisturbed itself. -/
theorem publish_sync_delivers (actions : List (BusAction T))
    (h : Lib.Along step Undisturbed {} actions) :
    Lib.Along step Delivers {} actions ∧ ∀ action, (run actions).Undisturbed action ↔
      ∀ rest, Lib.Along step Undisturbed ((run actions).step action) rest →
        Lib.Along step Delivers {} (actions ++ action :: rest) := by
  have hlaw : ∀ actions, Lib.Along step Undisturbed ({} : BusHistory T) actions →
      Lib.Along step Delivers {} actions := fun actions hactions =>
    hactions.of_invariant consistent_empty (fun _ _ hc hl => hc.step hl)
      fun _ action hc _ => hc.delivers action
  refine ⟨hlaw actions h, fun action => ⟨fun haction rest hrest => ?_, fun hall => ?_⟩⟩
  · exact hlaw _ (Lib.along_append.mpr ⟨h, haction, hrest⟩)
  · by_contra hdisturbed
    have hc : (run actions).Consistent :=
      (h.invariant consistent_empty fun _ _ hc hl => hc.step hl).2
    obtain ⟨rest, hrest, hbroken⟩ := hc.breakable hdisturbed
    exact hbroken (Lib.along_append.mp (hall rest hrest)).2.2

/-- A listener subscribes another one and publishes within the dispatch that calls it; the
subscription moves on and ends after both dispatches. -/
def nestedPublish : List (BusAction Bool) :=
  [.subscribe true 0, .subscribe false 1, .publish true, .call 0, .subscribe true 2,
    .publish true, .call 1, .call 1, .finish 1, .finish 0, .moveConstruct 3 0, .reset 3]

/-- A listener publishes and subscribes while it is called, and every publish delivers. -/
theorem publish_sync_delivers_nested :
    Lib.Along step Delivers {} nestedPublish ∧
      (run nestedPublish).dispatches.map SyncDispatch.called = [[0], [0, 2]] := by
  refine ⟨(publish_sync_delivers nestedPublish ?_).1, by decide⟩
  simp [nestedPublish, Lib.Along, Undisturbed, FreshId, Unawaited, step, subscribe, publish, take,
    EventBus.subscribeErased, Subscriptions.subscribe, Subscriptions.take]

/-- A listener resets the subscription of the one after it. -/
def resetWithinDispatch : List (BusAction Unit) :=
  [.subscribe () 0, .subscribe () 1, .publish (), .call 0, .reset 1, .call 0]

/-- A listener resets the one behind it, which is called all the same. -/
theorem called_after_reset :
    ¬ Lib.Along step Delivers {} resetWithinDispatch ∧
      (run resetWithinDispatch).dispatches.map SyncDispatch.called = [[0, 1]] := by
  refine ⟨fun h => ?_, by decide⟩
  have hactive := (h.2.2.2.2.2.1 ⟨1, 2⟩ [] [0, 1] [0] rfl).1
  revert hactive
  decide

end BusHistory

end TtsServer
