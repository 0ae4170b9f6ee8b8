import GlifiStore.Lib.Runs
import GlifiStore.Server.ConnectionSafety
import GlifiStore.Server.SessionRuns

/-!
# Runs of the mesh

Every turn of a Reactor keeps the connections of the mesh safe, so a request reaches
the Store only under the grant of its own connection.
-/

namespace GlifiStore.Server.ServerMesh

section Slots

variable {config : ReactorConfig} {mesh : ServerMesh} {executor index socket : Nat}

/-! ## Turns -/

section Safe

variable (safe : mesh.Safe config)
include safe

theorem Safe.closeConnection
    (live : (mesh.slots executor index).socket = some socket) (slot : ConnectionSlot) :
    mesh.Leads config (mesh.closeConnection executor index slot socket) :=
  ⟨(safe.vacate live rfl .gone).1, fun _ _ => rfl, fun _ _ => rfl⟩

theorem Safe.settle
    (live : (mesh.slots executor index).socket = some socket) {kept : ConnectionSlot}
    (owner : kept.socket = some socket)
    (identity : kept.identity.principal = (mesh.slots executor index).identity.principal ∧
      kept.identity.grant = (mesh.slots executor index).identity.grant ∧
      kept.identity.boundWorker = (mesh.slots executor index).identity.boundWorker)
    {state : SessionState} (follows : state.Follows (mesh.slots executor index).session.binding) :
    mesh.Leads config (mesh.settle executor index kept socket state) := by
  cases state with
  | «open» session => exact safe.settle_open live owner identity follows
  | handedOff session => exact follows.elim
  | closed => exact safe.closeConnection live kept

theorem Safe.transferConnection
    (live : (mesh.slots executor index).socket = some socket) {session : Session} {target : Nat}
    (unbound : (mesh.slots executor index).session.binding.boundWorker = none)
    (initialized : (mesh.slots executor index).session.binding.initialized)
    (bound : session.binding =
      { (mesh.slots executor index).session.binding with boundWorker := some target })
    (decisions : Decisions) (frame requestId : Nat) :
    mesh.Leads config (mesh.transferConnection config executor index (mesh.slots executor index)
      socket decisions session frame target requestId) := by
  have owns := safe.slots executor index socket live
  have refused : ∀ {other : Session}, other.binding = session.binding →
      (refuseHandoff config.toServerConfig other decisions frame target requestId).state.Follows
        (mesh.slots executor index).session.binding := by
    intro other same
    refine refuseHandoff_follows ?_ frame target requestId
    rw [same, bound]
    exact .bind unbound initialized none
  unfold ServerMesh.transferConnection
  dsimp only
  split
  · refine safe.settle live live ⟨rfl, rfl, rfl⟩ (drainOrClose_follows ?_)
    rw [bound]
    exact .bind unbound initialized _
  split
  · exact safe.settle live live ⟨rfl, rfl, rfl⟩ (refused rfl)
  split
  · have emptied : (movedOut (mesh.slots executor index)).socket = none := rfl
    obtain ⟨vacated, absent⟩ := safe.vacate live emptied (.queued target)
    have notBound : (mesh.slots executor index).session.connection.boundWorker = none := unbound
    rw [notBound]
    let handoff : ConnectionHandoff :=
      { socket
        principal := (mesh.slots executor index).principal
        capabilities := (mesh.slots executor index).capabilities
        keyPrefix := (mesh.slots executor index).keyPrefix
        session := { session with connection.boundWorker := some target } }
    have started : handoff.identity.initialized := by
      have same := congrArg SessionBinding.initialized bound
      exact same.trans initialized
    have unrecorded : mesh.binds socket = [] := owns.binds.trans (congrArg Option.toList unbound)
    have queued := @Safe.enqueue config _ vacated target handoff absent (Function.update_self ..)
      owns.accepted unrecorded rfl started
    exact ⟨queued.safe, queued.grows.accepted, queued.grows.binds⟩
  split
  · exact ⟨(safe.vacate live rfl .gone).1, fun _ _ => rfl, fun _ _ => rfl⟩
  · refine safe.settle live ?_ ?_ (refused ?_)
    · rfl
    · exact ⟨rfl, rfl, unbound.symm⟩
    · rfl

theorem Safe.access {access : StoreAccess} (permits : mesh.Permits config access) :
    { mesh with accesses := access :: mesh.accesses }.Safe config where
  fresh := safe.fresh
  granted := safe.granted
  slots executor index socket here := { safe.slots executor index socket here with }
  handoffs executor handoff queued := { safe.handoffs executor handoff queued with }
  queuedOnce := safe.queuedOnce
  accesses other made := by
    have permitted : mesh.Permits config other := by
      rcases List.mem_cons.mp made with rfl | before
      · exact permits
      · exact safe.accesses other before
    exact { permitted with }

omit safe in
theorem Leads.of_access {access : StoreAccess} {after : ServerMesh}
    (leads : { mesh with accesses := access :: mesh.accesses }.Leads config after) :
    mesh.Leads config after :=
  ⟨leads.safe, leads.grows.accepted, leads.grows.binds⟩

theorem Safe.processFrame
    (live : (mesh.slots executor index).socket = some socket) (decisions : Decisions) :
    mesh.Leads config (mesh.processFrame config executor index (mesh.slots executor index) socket
      decisions) := by
  have owns := safe.slots executor index socket live
  unfold ServerMesh.processFrame
  dsimp only
  split
  · next outcome found =>
    have turn := found ▸ frameTurn_follows
    exact safe.settle live live ⟨rfl, rfl, rfl⟩ turn
  · next session frame target requestId found =>
    obtain ⟨unbound, initialized, bound⟩ := found ▸ frameTurn_follows
    exact safe.transferConnection live unbound initialized bound ..
  · next session request size found =>
    obtain ⟨decoded, authorized, same, bound, owner, opcode⟩ := found ▸ frameTurn_follows
    have executing : (mesh.slots executor index).session.binding.executorId = executor :=
      owns.executor
    rw [executing] at bound owner
    have permits : mesh.Permits config ⟨executor, socket, session.connection, request⟩ := by
      refine ⟨opcode, ?_, ?_, ?_, owner, ?_⟩
      · exact (congrArg SessionBinding.initialized same).trans
          (owns.initialized (congrArg Option.isSome bound))
      · exact (congrArg SessionBinding.boundWorker same).trans bound
      · exact owns.binds.trans (congrArg Option.toList bound)
      · have grant := safe.granted socket _ _ owns.accepted
        simp only [decoded] at authorized
        refine ⟨(mesh.slots executor index).principal, ?_, ?_⟩
        · exact grant ▸ owns.accepted
        · exact grant ▸ authorized
    refine Leads.of_access ((safe.access permits).settle live live ⟨rfl, rfl, rfl⟩ ?_)
    exact same ▸ executeLocal_follows request size

/-! ## Runs -/

omit safe in
theorem started_safe (config : ReactorConfig) : (started config).Safe config where
  fresh _ _ := ⟨rfl, rfl⟩
  granted _ _ _ := nofun
  slots _ _ _ := nofun
  handoffs _ _ := nofun
  queuedOnce _ := List.nodup_nil
  accesses _ := nofun

theorem Safe.pop {handoff : ConnectionHandoff}
    {rest : List ConnectionHandoff} (queue : mesh.handoffs executor = handoff :: rest) :
    { mesh with handoffs := Function.update mesh.handoffs executor rest }.Safe config ∧
      { mesh with handoffs := Function.update mesh.handoffs executor rest }.Absent handoff.socket := by
  have first := safe.handoffs executor handoff (by rw [queue]; exact List.mem_cons_self)
  have once := safe.queuedOnce executor
  rw [queue, List.map_cons, List.nodup_cons] at once
  have before : ∀ other, ∀ queued ∈ Function.update mesh.handoffs executor rest other,
      queued ∈ mesh.handoffs other ∧ queued.socket ≠ handoff.socket := by
    intro other queued member
    rw [Function.update_apply] at member
    split at member
    · next same =>
      rw [same, queue]
      refine ⟨List.mem_cons_of_mem _ member, fun twice => once.1 ?_⟩
      exact twice ▸ List.mem_map_of_mem member
    · next different =>
      refine ⟨member, fun twice => different ?_⟩
      have place := (safe.handoffs other queued member).place
      rw [twice, first.place] at place
      exact (ConnectionPlace.queued.inj place).symm
  constructor
  · refine ⟨safe.fresh, safe.granted, ?_, ?_, ?_, ?_⟩
    · intro otherExecutor otherIndex other here
      exact { safe.slots otherExecutor otherIndex other here with }
    · intro other queued member
      exact { safe.handoffs other queued (before other queued member).1 with }
    · intro other
      change ((Function.update mesh.handoffs executor rest other).map
        ConnectionHandoff.socket).Nodup
      rw [Function.update_apply]
      split
      · exact once.2
      · exact safe.queuedOnce other
    · intro access made
      exact { safe.accesses access made with }
  · refine ⟨fun otherExecutor otherIndex here => ?_, fun other queued member =>
      (before other queued member).2⟩
    have place := (safe.slots otherExecutor otherIndex handoff.socket here).place
    rw [first.place] at place
    exact nomatch place

theorem Safe.accept (principal : Bytes) :
    { mesh with
      nextSocket := mesh.nextSocket + 1
      accepted := Function.update mesh.accepted mesh.nextSocket
        (some (principal, acceptedGrant config principal)) }.Safe config ∧
      mesh.Absent mesh.nextSocket := by
  have unknown := (safe.fresh mesh.nextSocket (Nat.le_refl _)).1
  have absent : mesh.Absent mesh.nextSocket := by
    constructor
    · intro executor index here
      exact nomatch unknown.symm.trans (safe.slots executor index _ here).accepted
    · intro executor handoff queued same
      have owned := (safe.handoffs executor handoff queued).accepted
      rw [same, unknown] at owned
      exact nomatch owned
  have grows : mesh.Extends
      { mesh with
        nextSocket := mesh.nextSocket + 1
        accepted := Function.update mesh.accepted mesh.nextSocket
          (some (principal, acceptedGrant config principal)) } mesh.nextSocket := by
    refine ⟨fun other known => Function.update_of_ne ?_ _ _, fun _ _ => rfl,
      fun other different => Function.update_of_ne different _ _, fun _ _ => rfl, fun _ _ => rfl⟩
    rintro rfl
    exact known unknown
  refine ⟨safe.change grows ?_ ?_ ?_ ?_ safe.queuedOnce fun _ => .inl, absent⟩
  · intro other beyond
    have fresh := safe.fresh other (Nat.le_of_succ_le beyond)
    refine ⟨?_, fresh.2⟩
    exact (Function.update_of_ne (Nat.ne_of_gt beyond) _ _).trans fresh.1
  · intro other grant found
    change Function.update mesh.accepted mesh.nextSocket _ mesh.nextSocket = _ at found
    rw [Function.update_self] at found
    obtain ⟨rfl, rfl⟩ := Prod.mk.inj (Option.some.inj found)
    rfl
  · intro executor index other here
    refine .inl ⟨?_, rfl⟩
    rintro rfl
    exact absent.slots executor index here
  · intro executor handoff queued
    exact .inl ⟨absent.handoffs executor handoff queued, queued⟩

theorem Safe.acceptReady (executor : Nat) (peer : AcceptedPeer) (socketOptions pollerAdds : Bool) :
    mesh.Leads config (mesh.acceptReady config executor peer socketOptions pollerAdds) := by
  unfold ServerMesh.acceptReady
  split
  · exact .refl safe
  · next principal known =>
    obtain ⟨accepted, absent⟩ := safe.accept principal
    have unknown := safe.fresh mesh.nextSocket (Nat.le_refl _)
    have adopted := @Safe.adoptConnection config _ accepted
      { socket := mesh.nextSocket
        principal
        capabilities := (acceptedGrant config principal).capabilities
        keyPrefix := (acceptedGrant config principal).keyPrefix
        session := { connection := { executorId := executor, tls := peer.isTls } } }
      ⟨absent.slots, absent.handoffs⟩ ⟨Function.update_self .., unknown.2, nofun⟩
      executor socketOptions pollerAdds
    refine ⟨adopted.safe, fun other before => ?_, adopted.grows.binds⟩
    have kept : Function.update mesh.accepted mesh.nextSocket
        (some (principal, acceptedGrant config principal)) other = mesh.accepted other := by
      refine Function.update_of_ne ?_ _ _
      rintro rfl
      exact before unknown.1
    refine (adopted.grows.accepted other ?_).trans kept
    exact fun gone => before (kept.symm.trans gone)

theorem Safe.step (event : MeshEvent) : mesh.Leads config (mesh.step config event) := by
  cases event with
  | accept executor peer socketOptions pollerAdds => exact safe.acceptReady ..
  | adopt executor socketOptions pollerAdds =>
    unfold ServerMesh.step
    dsimp only
    split
    · exact .refl safe
    · next handoff rest queue =>
      obtain ⟨popped, absent⟩ := safe.pop queue
      have owns := safe.handoffs executor handoff (by rw [queue]; exact List.mem_cons_self)
      have adopted := popped.adoptConnection absent { owns.toOwns with } executor socketOptions
        pollerAdds
      exact ⟨adopted.safe, adopted.grows.accepted, adopted.grows.binds⟩
  | rejectHandoff executor =>
    unfold ServerMesh.step
    dsimp only
    split
    · exact .refl safe
    · next handoff rest queue =>
      obtain ⟨popped, absent⟩ := safe.pop queue
      exact ⟨(popped.reject absent).safe, fun _ _ => rfl, fun _ _ => rfl⟩
  | deliver executor token event =>
    unfold ServerMesh.step
    dsimp only
    split
    · exact .refl safe
    · next slot socket found =>
      obtain ⟨rfl, live⟩ := connection_some found
      split
      · exact safe.processFrame live _
      · next notFrame =>
        exact safe.settle live live ⟨rfl, rfl, rfl⟩ (step_follows fun decisions same =>
          notFrame decisions same)

end Safe

end Slots

variable {config : ReactorConfig}

theorem run_leads {mesh : ServerMesh} (safe : mesh.Safe config) (events : List MeshEvent) :
    mesh.Leads config (Runs.run (step config) mesh events) := by
  induction events generalizing mesh with
  | nil => exact .refl safe
  | cons event rest ih =>
    have first := safe.step event
    have later := ih first.safe
    exact ⟨later.safe, first.grows.trans later.grows⟩

theorem Safe.owns {mesh : ServerMesh} (safe : mesh.Safe config) {socket : Nat}
    {identity : ConnectionIdentity} (lives : mesh.Lives socket identity) :
    mesh.Owns socket identity := by
  cases lives with
  | slot executor index here => exact (safe.slots executor index socket here).toOwns
  | queued executor handoff here own => exact own ▸ (safe.handoffs executor handoff here).toOwns

/-- In every run, a request reaches the Store only on an initialized connection that was
bound once, to the executor that owns the key, and under what was granted to its
principal when it was accepted. A connection has the principal, the grant and the
binding of its own socket and keeps them for as long as it lives, in whatever slot or
queue it is. -/
theorem store_reached_under_grant (config : ReactorConfig) (earlier later : List MeshEvent) :
    let mesh := Runs.run (step config) (started config)
    (∀ access ∈ (mesh (earlier ++ later)).accesses,
      (mesh (earlier ++ later)).Permits config access) ∧
    ∀ socket before after, (mesh earlier).Lives socket before →
      (mesh (earlier ++ later)).Lives socket after →
      (mesh earlier).Owns socket before ∧
        before.grant = acceptedGrant config before.principal ∧
        after.principal = before.principal ∧ after.grant = before.grant ∧
        (∀ worker, before.boundWorker = some worker → after.boundWorker = some worker) := by
  intro mesh
  have first := run_leads (started_safe config) earlier
  have second := run_leads first.safe later
  have joined : mesh (earlier ++ later) = Runs.run (step config) (mesh earlier) later :=
    List.foldl_append ..
  rw [joined]
  refine ⟨second.safe.accesses, fun socket before after livesBefore livesAfter => ?_⟩
  have owned := first.safe.owns livesBefore
  have owns := second.safe.owns livesAfter
  have same := second.grows.accepted socket (by rw [owned.accepted]; nofun)
  rw [owned.accepted, owns.accepted] at same
  obtain ⟨principal, grant⟩ := Prod.mk.inj (Option.some.inj same)
  refine ⟨owned, first.safe.granted socket _ _ owned.accepted, principal, grant,
    fun worker bound => ?_⟩
  have recorded := owned.binds
  rw [bound] at recorded
  have kept := second.grows.binds socket (by rw [recorded]; exact List.cons_ne_nil _ _)
  rw [recorded, owns.binds] at kept
  exact Option.toList_eq_singleton_iff.mp kept

/-- Two Workers, of which the first owns every key, and one principal. -/
def grantingServer : ReactorConfig where
  toServerConfig := twoWorkers
  authz := ⟨true, [([97], ⟨Capability.read ||| Capability.write, [107]⟩)]⟩
  maximumConnections := 1
  tls := false
  mtls := false
  unixPeercred := true
  unixPeercredRequired := true

/-- The principal connects to the second Worker. -/
@[irreducible]
def connected : List MeshEvent :=
  [.accept 1 (.unix (some [97])) true true, .deliver 1 ⟨0, 1⟩ (received (binding ⟨0, Nat.zero_lt_two⟩))]

/-- It binds itself to the first Worker, which serves its mutations. -/
@[irreducible]
def handedOver : List MeshEvent :=
  [.deliver 1 ⟨0, 1⟩ (.frame {}), .deliver 1 ⟨0, 1⟩ (.frame {}), .adopt 0 true true,
    .deliver 0 ⟨0, 1⟩ (received mutations), .deliver 0 ⟨0, 1⟩ (.frame {}),
    .deliver 0 ⟨0, 1⟩ (.frame {})]

theorem store_reached_under_grant_handedOver :
    let mesh := Runs.run (step grantingServer) (started grantingServer)
    ((mesh (connected ++ handedOver)).accesses.length = 2 ∧
      ∀ access ∈ (mesh (connected ++ handedOver)).accesses,
        (mesh (connected ++ handedOver)).Permits grantingServer access) ∧
    ∃ before after, (mesh connected).Lives 0 before ∧
      (mesh (connected ++ handedOver)).Lives 0 after ∧ after.grant = before.grant := by
  intro mesh
  obtain ⟨permitted, kept⟩ := store_reached_under_grant grantingServer connected handedOver
  have accepted : (mesh connected).Lives 0 _ := .slot 1 0 (by decide +kernel)
  have adopted : (mesh (connected ++ handedOver)).Lives 0 _ := .slot 0 0 (by decide +kernel)
  refine ⟨⟨by decide +kernel, permitted⟩, _, _, accepted, adopted, ?_⟩
  exact (kept 0 _ _ accepted adopted).2.2.2.1

end GlifiStore.Server.ServerMesh
