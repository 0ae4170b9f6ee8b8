import GlifiStore.Server.ConnectionTable
import GlifiStore.Server.SessionBinding

/-!
# Requests reach the Store under their own grant

A socket is in one slot or one queue at a time, which holds the principal and the grant
it was accepted with and the Worker it was bound to.
-/

namespace GlifiStore.Server

structure ConnectionIdentity where
  principal : Bytes
  grant : AuthzGrant
  boundWorker : Option Nat
  initialized : Bool

def ConnectionSlot.identity (slot : ConnectionSlot) : ConnectionIdentity where
  principal := slot.principal
  grant := ⟨slot.capabilities, slot.keyPrefix⟩
  boundWorker := slot.session.connection.boundWorker
  initialized := slot.session.connection.initialized

def ConnectionHandoff.identity (handoff : ConnectionHandoff) : ConnectionIdentity where
  principal := handoff.principal
  grant := ⟨handoff.capabilities, handoff.keyPrefix⟩
  boundWorker := handoff.session.connection.boundWorker
  initialized := handoff.session.connection.initialized

namespace ServerMesh

/-- The connection of a socket, in a slot or on its way to another Reactor. -/
inductive Lives (mesh : ServerMesh) (socket : Nat) : ConnectionIdentity → Prop where
  | slot (executor index : Nat) (here : (mesh.slots executor index).socket = some socket) :
      Lives mesh socket (mesh.slots executor index).identity
  | queued (executor : Nat) (handoff : ConnectionHandoff)
      (here : handoff ∈ mesh.handoffs executor) (own : handoff.socket = socket) :
      Lives mesh socket handoff.identity

/-- A request that may reach the Store: its connection is initialized and was bound once,
to the executor that its key belongs to, and what was granted to the principal when the
socket was accepted authorizes it. -/
structure Permits (config : ReactorConfig) (mesh : ServerMesh) (access : StoreAccess) : Prop where
  opcode : access.request.opcode = .get ∨ access.request.opcode = .put ∨
    access.request.opcode = .erase
  initialized : access.connection.initialized
  bound : access.connection.boundWorker = some access.executor
  boundOnce : mesh.binds access.socket = [access.executor]
  owner : config.owner access.request.key = access.executor
  authorized : ∃ principal, mesh.accepted access.socket =
      some (principal, acceptedGrant config principal) ∧
    authorizeRequest config.authz (acceptedGrant config principal).capabilities
      (acceptedGrant config principal).keyPrefix access.request.opcode access.request.key

/-! ## The invariant -/

/-- The identity of a connection is the one of its socket. -/
structure Owns (mesh : ServerMesh) (socket : Nat) (identity : ConnectionIdentity) : Prop where
  accepted : mesh.accepted socket = some (identity.principal, identity.grant)
  binds : mesh.binds socket = identity.boundWorker.toList
  initialized : identity.boundWorker.isSome → identity.initialized

structure OwnsSlot (mesh : ServerMesh) (executor index socket : Nat) (slot : ConnectionSlot) : Prop
    extends mesh.Owns socket slot.identity where
  place : mesh.place socket = .slot executor index
  executor : slot.session.connection.executorId = executor

structure OwnsHandoff (mesh : ServerMesh) (executor : Nat) (handoff : ConnectionHandoff) : Prop
    extends mesh.Owns handoff.socket handoff.identity where
  place : mesh.place handoff.socket = .queued executor

structure Safe (config : ReactorConfig) (mesh : ServerMesh) : Prop where
  fresh : ∀ socket ≥ mesh.nextSocket, mesh.accepted socket = none ∧ mesh.binds socket = []
  granted : ∀ socket principal grant, mesh.accepted socket = some (principal, grant) →
    grant = acceptedGrant config principal
  slots : ∀ executor index socket, (mesh.slots executor index).socket = some socket →
    mesh.OwnsSlot executor index socket (mesh.slots executor index)
  handoffs : ∀ executor, ∀ handoff ∈ mesh.handoffs executor, mesh.OwnsHandoff executor handoff
  queuedOnce : ∀ executor, ((mesh.handoffs executor).map ConnectionHandoff.socket).Nodup
  accesses : ∀ access ∈ mesh.accesses, mesh.Permits config access

/-- What is known of the sockets only grows, and of others than one it stays. -/
structure Extends (before after : ServerMesh) (socket : Nat) : Prop where
  accepted : ∀ other, before.accepted other ≠ none → after.accepted other = before.accepted other
  binds : ∀ other, before.binds other ≠ [] → after.binds other = before.binds other
  acceptedOther : ∀ other, other ≠ socket → after.accepted other = before.accepted other
  bindsOther : ∀ other, other ≠ socket → after.binds other = before.binds other
  placeOther : ∀ other, other ≠ socket → after.place other = before.place other

variable {config : ReactorConfig} {mesh after : ServerMesh} {socket other : Nat}

theorem Extends.owns (grows : mesh.Extends after socket) (different : other ≠ socket)
    {identity : ConnectionIdentity} (owns : mesh.Owns other identity) :
    after.Owns other identity where
  accepted := (grows.acceptedOther other different).trans owns.accepted
  binds := (grows.bindsOther other different).trans owns.binds
  initialized := owns.initialized

theorem Extends.permits (grows : mesh.Extends after socket) {access : StoreAccess}
    (permits : mesh.Permits config access) : after.Permits config access where
  opcode := permits.opcode
  initialized := permits.initialized
  bound := permits.bound
  boundOnce := by
    rw [grows.binds access.socket (by rw [permits.boundOnce]; exact List.cons_ne_nil _ _)]
    exact permits.boundOnce
  owner := permits.owner
  authorized := by
    obtain ⟨principal, accepted, authorized⟩ := permits.authorized
    refine ⟨principal, ?_, authorized⟩
    rw [grows.accepted access.socket (by rw [accepted]; nofun)]
    exact accepted

theorem Safe.change (safe : mesh.Safe config) (grows : mesh.Extends after socket)
    (fresh : ∀ other ≥ after.nextSocket, after.accepted other = none ∧ after.binds other = [])
    (granted : ∀ principal grant, after.accepted socket = some (principal, grant) →
      grant = acceptedGrant config principal)
    (slots : ∀ executor index other, (after.slots executor index).socket = some other →
      (other ≠ socket ∧ after.slots executor index = mesh.slots executor index) ∨
        after.OwnsSlot executor index other (after.slots executor index))
    (handoffs : ∀ executor, ∀ handoff ∈ after.handoffs executor,
      (handoff.socket ≠ socket ∧ handoff ∈ mesh.handoffs executor) ∨
        after.OwnsHandoff executor handoff)
    (queuedOnce : ∀ executor, ((after.handoffs executor).map ConnectionHandoff.socket).Nodup)
    (accesses : ∀ access ∈ after.accesses, access ∈ mesh.accesses ∨ after.Permits config access) :
    after.Safe config where
  fresh := fresh
  granted other principal grant found := by
    by_cases same : other = socket
    · exact granted principal grant (same ▸ found)
    · exact safe.granted other principal grant ((grows.acceptedOther other same) ▸ found)
  slots executor index other here := by
    rcases slots executor index other here with ⟨different, same⟩ | owns
    · rw [same] at here ⊢
      have owns := safe.slots executor index other here
      exact ⟨grows.owns different owns.toOwns, (grows.placeOther other different).trans owns.place,
        owns.executor⟩
    · exact owns
  handoffs executor handoff queued := by
    rcases handoffs executor handoff queued with ⟨different, before⟩ | owns
    · have owns := safe.handoffs executor handoff before
      exact ⟨grows.owns different owns.toOwns, (grows.placeOther _ different).trans owns.place⟩
    · exact owns
  queuedOnce := queuedOnce
  accesses access made := by
    rcases accesses access made with before | permits
    · exact grows.permits (safe.accesses access before)
    · exact permits

/-- What was accepted stays accepted as it was, and a binding stays. -/
structure Grows (before after : ServerMesh) : Prop where
  accepted : ∀ socket, before.accepted socket ≠ none → after.accepted socket = before.accepted socket
  binds : ∀ socket, before.binds socket ≠ [] → after.binds socket = before.binds socket

theorem Extends.grows {before : ServerMesh} (changed : before.Extends after socket) :
    before.Grows after :=
  ⟨changed.accepted, changed.binds⟩

theorem Grows.trans {first second third : ServerMesh} (early : first.Grows second)
    (late : second.Grows third) : first.Grows third where
  accepted socket known := by
    rw [late.accepted socket (by rw [early.accepted socket known]; exact known)]
    exact early.accepted socket known
  binds socket known := by
    rw [late.binds socket (by rw [early.binds socket known]; exact known)]
    exact early.binds socket known

/-- A step to a safe mesh that knows what was known before. -/
structure Leads (config : ReactorConfig) (before after : ServerMesh) : Prop where
  safe : after.Safe config
  grows : before.Grows after

theorem Leads.refl (safe : mesh.Safe config) :
    mesh.Leads config mesh :=
  ⟨safe, fun _ _ => rfl, fun _ _ => rfl⟩

/-! ## A connection in its slot -/

variable {executor index : Nat}

theorem slots_setSlot (slot : ConnectionSlot) (otherExecutor otherIndex : Nat) :
    (mesh.setSlot executor index slot).slots otherExecutor otherIndex =
      if otherExecutor = executor ∧ otherIndex = index then slot
      else mesh.slots otherExecutor otherIndex := rfl

theorem slots_retireSlot (emptied : ConnectionSlot) (otherExecutor otherIndex : Nat) :
    (mesh.retireSlot executor index emptied).slots otherExecutor otherIndex =
      if otherExecutor = executor ∧ otherIndex = index then
        { emptied with generation := (advanceConnectionGeneration emptied.generation).1 }
      else mesh.slots otherExecutor otherIndex := rfl

theorem recorded {before after : Option Nat} (kept : before.isSome → after = before) :
    (before.toList ++ if before = after then [] else after.toList) = after.toList := by
  cases before with
  | none => cases after <;> simp
  | some worker => simp [kept rfl]

section Safe

variable (safe : mesh.Safe config)
include safe

theorem Safe.other_slot (live : (mesh.slots executor index).socket = some socket)
    {otherExecutor otherIndex : Nat} (elsewhere : ¬ (otherExecutor = executor ∧ otherIndex = index))
    (here : (mesh.slots otherExecutor otherIndex).socket = some other) : other ≠ socket := by
  rintro rfl
  have first := (safe.slots executor index other live).place
  rw [(safe.slots otherExecutor otherIndex other here).place] at first
  simp only [ConnectionPlace.slot.injEq] at first
  exact elsewhere first

variable {target : Nat} {handoff : ConnectionHandoff}

theorem Safe.other_handoff (live : (mesh.slots executor index).socket = some socket)
    (queued : handoff ∈ mesh.handoffs target) :
    handoff.socket ≠ socket := by
  intro same
  have place := (safe.handoffs target handoff queued).place
  rw [same, (safe.slots executor index socket live).place] at place
  exact nomatch place

theorem Safe.settle_open
    (live : (mesh.slots executor index).socket = some socket) {kept : ConnectionSlot}
    (owner : kept.socket = some socket)
    (identity : kept.identity.principal = (mesh.slots executor index).identity.principal ∧
      kept.identity.grant = (mesh.slots executor index).identity.grant ∧
      kept.identity.boundWorker = (mesh.slots executor index).identity.boundWorker)
    {session : Session}
    (follows : session.binding.Follows (mesh.slots executor index).session.binding) :
    mesh.Leads config (mesh.settle executor index kept socket (.open session)) := by
  have owns := safe.slots executor index socket live
  obtain ⟨principal, grant, bound⟩ := identity
  have bindsAt : ∀ other, (mesh.settle executor index kept socket (.open session)).binds other =
      if other = socket then session.connection.boundWorker.toList else mesh.binds other := by
    intro other
    change Function.update mesh.binds socket (mesh.binds socket ++
      if kept.identity.boundWorker = session.connection.boundWorker then []
      else session.connection.boundWorker.toList) other = _
    rw [Function.update_apply, owns.binds, ← bound, recorded fun known => ?_]
    rw [bound] at known ⊢
    exact follows.boundWorker known
  have grows : mesh.Extends (mesh.settle executor index kept socket (.open session)) socket := by
    refine ⟨fun _ _ => rfl, ?_, fun _ _ => rfl, ?_, fun _ _ => rfl⟩
    · intro other known
      rw [bindsAt]
      split
      · next same =>
        rw [same, owns.binds] at known
        rw [same, owns.binds]
        refine congrArg Option.toList (follows.boundWorker ?_)
        cases bound : (mesh.slots executor index).session.binding.boundWorker with
        | none => exact absurd (congrArg Option.toList bound) known
        | some worker => rfl
      · rfl
    · intro other different
      rw [bindsAt, if_neg different]
  refine ⟨safe.change grows ?_ (safe.granted socket) ?_ ?_ safe.queuedOnce fun _ => .inl, grows.grows⟩
  · intro other beyond
    have fresh := safe.fresh other beyond
    have different : other ≠ socket := by
      rintro rfl
      rw [owns.accepted] at fresh
      exact nomatch fresh.1
    rw [bindsAt, if_neg different]
    exact fresh
  · intro otherExecutor otherIndex other here
    by_cases same : otherExecutor = executor ∧ otherIndex = index
    · obtain ⟨rfl, rfl⟩ := same
      refine .inr ?_
      have found : (mesh.settle otherExecutor otherIndex kept socket (.open session)).slots
          otherExecutor otherIndex = { kept with session } := if_pos ⟨rfl, rfl⟩
      rw [found] at here ⊢
      obtain rfl : socket = other := Option.some.inj (owner.symm.trans here)
      refine ⟨⟨?_, ?_, ?_⟩, owns.place, ?_⟩
      · exact owns.accepted.trans (congrArg some (Prod.ext principal.symm grant.symm))
      · exact (bindsAt socket).trans (if_pos rfl)
      · exact follows.whenBound owns.initialized
      · exact follows.executorId.trans owns.executor
    · have found : (mesh.settle executor index kept socket (.open session)).slots
          otherExecutor otherIndex = mesh.slots otherExecutor otherIndex := if_neg same
      rw [found] at here
      exact .inl ⟨safe.other_slot live same here, found⟩
  · intro target handoff queued
    exact .inl ⟨safe.other_handoff live queued, queued⟩

/-! ## A connection on its way -/

structure Absent (mesh : ServerMesh) (socket : Nat) : Prop where
  slots : ∀ executor index, (mesh.slots executor index).socket ≠ some socket
  handoffs : ∀ executor, ∀ handoff ∈ mesh.handoffs executor, handoff.socket ≠ socket

variable {place : ConnectionPlace}

omit safe in
theorem Extends.of_place (accepted : after.accepted = mesh.accepted)
    (binds : after.binds = mesh.binds)
    (moved : after.place = Function.update mesh.place socket place) :
    mesh.Extends after socket where
  accepted _ _ := by rw [accepted]
  binds _ _ := by rw [binds]
  acceptedOther _ _ := by rw [accepted]
  bindsOther _ _ := by rw [binds]
  placeOther _ different := by rw [moved, Function.update_of_ne different]

theorem Safe.vacate
    (live : (mesh.slots executor index).socket = some socket) {emptied : ConnectionSlot}
    (empty : emptied.socket = none) (place : ConnectionPlace) :
    ((mesh.retireSlot executor index emptied).setPlace socket place).Safe config ∧
      ((mesh.retireSlot executor index emptied).setPlace socket place).Absent socket := by
  have elsewhere : ∀ otherExecutor otherIndex other,
      ((mesh.retireSlot executor index emptied).slots otherExecutor otherIndex).socket = some other →
      other ≠ socket ∧ (mesh.retireSlot executor index emptied).slots otherExecutor otherIndex =
        mesh.slots otherExecutor otherIndex := by
    intro otherExecutor otherIndex other here
    rw [slots_retireSlot] at here ⊢
    split at here
    · exact nomatch empty.symm.trans here
    · next different =>
      rw [if_neg different]
      exact ⟨safe.other_slot live different here, rfl⟩
  constructor
  · refine safe.change (.of_place rfl rfl rfl) safe.fresh (safe.granted socket) ?_ ?_
      safe.queuedOnce fun _ => .inl
    · intro otherExecutor otherIndex other here
      exact .inl (elsewhere otherExecutor otherIndex other here)
    · intro target handoff queued
      exact .inl ⟨safe.other_handoff live queued, queued⟩
  · refine ⟨fun otherExecutor otherIndex here => ?_, fun target handoff => safe.other_handoff live⟩
    exact (elsewhere otherExecutor otherIndex socket here).1 rfl

theorem Safe.enqueue (absent : mesh.Absent handoff.socket)
    (place : mesh.place handoff.socket = .queued target) (accepted : mesh.accepted handoff.socket =
      some (handoff.identity.principal, handoff.identity.grant))
    (unbound : mesh.binds handoff.socket = []) (bound : handoff.identity.boundWorker = some target)
    (initialized : handoff.identity.initialized) :
    mesh.Leads config
      ({ mesh with
        handoffs := Function.update mesh.handoffs target (mesh.handoffs target ++ [handoff]) }.recordBind
        handoff.socket none (some target)) := by
  have bindsAt : ∀ other, Function.update mesh.binds handoff.socket
      (mesh.binds handoff.socket ++ if none = some target then [] else [target]) other =
      if other = handoff.socket then [target] else mesh.binds other := by
    intro other
    rw [Function.update_apply, unbound]
    rfl
  have grows : mesh.Extends
      ({ mesh with
        handoffs := Function.update mesh.handoffs target (mesh.handoffs target ++ [handoff]) }.recordBind
        handoff.socket none (some target)) handoff.socket := by
    refine ⟨fun _ _ => rfl, fun other known => ?_, fun _ _ => rfl, fun other different => ?_,
      fun _ _ => rfl⟩
    · refine (bindsAt other).trans (if_neg ?_)
      rintro rfl
      exact known unbound
    · exact (bindsAt other).trans (if_neg different)
  refine ⟨safe.change grows ?_ (safe.granted _) ?_ ?_ ?_ fun _ => .inl, grows.grows⟩
  · intro other beyond
    have fresh := safe.fresh other beyond
    refine ⟨fresh.1, (bindsAt other).trans ?_⟩
    rw [if_neg, fresh.2]
    rintro rfl
    exact nomatch fresh.1.symm.trans accepted
  · intro executor index other here
    refine .inl ⟨?_, rfl⟩
    rintro rfl
    exact absent.slots executor index here
  · intro executor queued member
    change queued ∈ Function.update mesh.handoffs target (mesh.handoffs target ++ [handoff]) executor
      at member
    rw [Function.update_apply] at member
    split at member
    · next same =>
      subst same
      rcases List.mem_append.mp member with before | new
      · exact .inl ⟨absent.handoffs executor queued before, before⟩
      · obtain rfl := List.mem_singleton.mp new
        refine .inr ⟨⟨accepted, ?_, fun _ => initialized⟩, place⟩
        exact (bindsAt _).trans ((if_pos rfl).trans (congrArg Option.toList bound.symm))
    · exact .inl ⟨absent.handoffs executor queued member, member⟩
  · intro executor
    change ((Function.update mesh.handoffs target (mesh.handoffs target ++ [handoff]) executor).map
      ConnectionHandoff.socket).Nodup
    rw [Function.update_apply]
    split
    · rw [List.map_append, List.nodup_append]
      refine ⟨safe.queuedOnce target, List.pairwise_singleton .., ?_⟩
      intro before member new here
      obtain ⟨queued, queuedHere, rfl⟩ := List.mem_map.mp member
      rw [List.mem_singleton.mp here]
      exact absent.handoffs target queued queuedHere
    · exact safe.queuedOnce executor

theorem Safe.moved (absent : mesh.Absent socket)
    (moved : after.place = Function.update mesh.place socket place)
    (rest : after.handoffs = mesh.handoffs ∧ after.nextSocket = mesh.nextSocket ∧
      after.accepted = mesh.accepted ∧ after.binds = mesh.binds ∧ after.accesses = mesh.accesses)
    (slots : ∀ executor index other, (after.slots executor index).socket = some other →
      after.slots executor index = mesh.slots executor index ∨
        after.OwnsSlot executor index other (after.slots executor index)) :
    mesh.Leads config after := by
  obtain ⟨handoffs, nextSocket, accepted, binds, accesses⟩ := rest
  have grows : mesh.Extends after socket := .of_place accepted binds moved
  refine ⟨safe.change grows ?_ ?_ ?_ ?_ ?_ ?_, grows.grows⟩
  · rw [nextSocket, accepted, binds]
    exact safe.fresh
  · rw [accepted]
    exact safe.granted socket
  · intro executor index other here
    rcases slots executor index other here with same | owns
    · refine .inl ⟨?_, same⟩
      rintro rfl
      exact absent.slots executor index (same ▸ here)
    · exact .inr owns
  · intro target handoff queued
    rw [handoffs] at queued
    exact .inl ⟨absent.handoffs target handoff queued, queued⟩
  · rw [handoffs]
    exact safe.queuedOnce
  · intro access made
    rw [accesses] at made
    exact .inl made

theorem Safe.reject (absent : mesh.Absent socket) :
    mesh.Leads config (mesh.setPlace socket .gone) :=
  safe.moved absent rfl ⟨rfl, rfl, rfl, rfl, rfl⟩ fun _ _ _ _ => .inl rfl

theorem Safe.adoptConnection (absent : mesh.Absent handoff.socket)
    (owns : mesh.Owns handoff.socket handoff.identity) (executor : Nat)
    (socketOptions pollerAdds : Bool) :
    mesh.Leads config (mesh.adoptConnection executor handoff socketOptions pollerAdds) := by
  have emptied : ∀ index (slot : ConnectionSlot), slot.socket = none → mesh.Leads config
      ((mesh.setPlace handoff.socket .gone).setSlot executor index slot) := by
    intro index slot empty
    refine safe.moved absent rfl ⟨rfl, rfl, rfl, rfl, rfl⟩ fun otherExecutor otherIndex other here => ?_
    rw [slots_setSlot] at here ⊢
    split at here
    · exact nomatch empty.symm.trans here
    · next different => exact .inl (if_neg different)
  have rejected := safe.reject absent
  have installed : ∀ index (slot : ConnectionSlot) freeSlots, slot.socket = some handoff.socket →
      slot.identity = handoff.identity → slot.session.connection.executorId = executor →
      mesh.Leads config
        { (mesh.setPlace handoff.socket (.slot executor index)).setSlot executor index slot with
          freeSlots } := by
    intro index slot freeSlots owner identity own
    refine safe.moved absent rfl ⟨rfl, rfl, rfl, rfl, rfl⟩ fun otherExecutor otherIndex other => ?_
    dsimp only
    rw [slots_setSlot]
    split
    · next same =>
      obtain ⟨rfl, rfl⟩ := same
      intro here
      obtain rfl : handoff.socket = other := Option.some.inj (owner.symm.trans here)
      rw [← identity] at owns
      exact .inr ⟨⟨owns.accepted, owns.binds, owns.initialized⟩, Function.update_self .., own⟩
    · exact fun _ => .inl rfl
  unfold ServerMesh.adoptConnection
  dsimp only
  split
  · exact rejected
  split
  · exact rejected
  next index rest free =>
  split
  · exact emptied index _ rfl
  split
  · exact emptied index _ rfl
  exact installed index _ _ rfl rfl rfl

end Safe

end ServerMesh

end GlifiStore.Server
