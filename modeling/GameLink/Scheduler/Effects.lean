import GameLink.Scheduler.Repository

namespace GameLink.Scheduler

open Foundation Work Contracts Store

variable [Hashing] {u u' : UnitOfWork Database Failure}

structure Extends (subscription : String → Prop) (event : EventId → Prop) (u u' : UnitOfWork Database Failure) :
    Prop where
  guards : u'.commitGuards = u.commitGuards
  jobs : u'.store.collectionJobs = u.store.collectionJobs
  observations : ∀ id row, u.store.observations.get id = some row → u'.store.observations.get id = some row
  members : ∀ key row, u.store.members.get key = some row → u'.store.members.get key = some row
  suppressed : ∀ key row, u.store.suppressed.get key = some row → u'.store.suppressed.get key = some row
  states : ∀ id, ¬ subscription id → u'.store.evaluationStates.get id = u.store.evaluationStates.get id
  events : ∀ id, ¬ event id → u'.store.events.get id = u.store.events.get id
  stored : ∀ id, u'.store.events.get id = none → u.store.events.get id = none

namespace Extends

variable {subscription : String → Prop} {event : EventId → Prop} {u u' u'' : UnitOfWork Database Failure}

theorem refl (u : UnitOfWork Database Failure) : Extends subscription event u u :=
  ⟨rfl, rfl, fun _ _ h => h, fun _ _ h => h, fun _ _ h => h, fun _ _ => rfl, fun _ _ => rfl, fun _ h => h⟩

theorem trans (h : Extends subscription event u u') (h' : Extends subscription event u' u'') :
    Extends subscription event u u'' where
  guards := h'.guards.trans h.guards
  jobs := h'.jobs.trans h.jobs
  observations := fun id row hr => h'.observations id row (h.observations id row hr)
  members := fun key row hr => h'.members key row (h.members key row hr)
  suppressed := fun key row hr => h'.suppressed key row (h.suppressed key row hr)
  states := fun id hid => (h'.states id hid).trans (h.states id hid)
  events := fun id hid => (h'.events id hid).trans (h.events id hid)
  stored := fun id hn => h.stored id (h'.stored id hn)

theorem mono {subscription' : String → Prop} {event' : EventId → Prop} (h : Extends subscription event u u')
    (hs : ∀ id, subscription id → subscription' id) (he : ∀ id, event id → event' id) :
    Extends subscription' event' u u' where
  guards := h.guards
  jobs := h.jobs
  observations := h.observations
  members := h.members
  suppressed := h.suppressed
  states := fun id hid => h.states id fun hid' => hid (hs id hid')
  events := fun id hid => h.events id fun hid' => hid (he id hid')
  stored := h.stored

theorem of_same (hg : u'.commitGuards = u.commitGuards) (hj : u'.store.collectionJobs = u.store.collectionJobs)
    (ho : u'.store.observations = u.store.observations) (hm : u'.store.members = u.store.members)
    (hp : u'.store.suppressed = u.store.suppressed) (ht : u'.store.evaluationStates = u.store.evaluationStates)
    (he : u'.store.events = u.store.events) : Extends subscription event u u' where
  guards := hg
  jobs := hj
  observations := fun id row hr => by rw [ho]; exact hr
  members := fun key row hr => by rw [hm]; exact hr
  suppressed := fun key row hr => by rw [hp]; exact hr
  states := fun id _ => by rw [ht]
  events := fun id _ => by rw [he]
  stored := fun id hn => by rw [← he]; exact hn

end Extends

variable {x : Unit}

theorem insertObservation_gives {o : Observation} (h : (insertObservation o).Gives u x u') :
    (∀ S E, Extends S E u u') ∧ u.store.observations.get o.observationId = none ∧
      u'.store.observations.get o.observationId = some ⟨o.observationId, jobKey o.key, o⟩ := by
  simp only [insertObservation, gives_bind, gives_read, gives_raiseIf, gives_orRaise, gives_write] at h
  obtain ⟨_, _, ⟨rfl, rfl⟩, _, _, ⟨-, rfl⟩, observations, _, ⟨hi, rfl⟩, rfl⟩ := h
  refine ⟨fun S E => ?_, Table.get_of_insert hi, ?_⟩
  · have hsame : Extends S E u u := .refl _
    exact { hsame with observations := fun id row hr => Table.kept_of_insert hi hr }
  · dsimp only
    rw [Table.get_insert hi, if_pos rfl]

variable {fence : Option SubscriptionFence}

variable {item : SubscriptionEvaluationCommit}

theorem writeState_gives
    (h : (writeState item fence).Gives u x u') :
    (∀ E, Extends (· = item.subscriptionId) E u u') ∧
      (u.store.evaluationStates.get item.subscriptionId).map EvaluationStateRow.revision = item.expectedStateRevision ∧
      u'.store.evaluationStates.get item.subscriptionId = some (stateRow item fence) := by
  simp only [writeState, gives_bind, gives_read] at h
  obtain ⟨_, _, ⟨rfl, rfl⟩, h⟩ := h
  cases hr : item.expectedStateRevision with
  | none =>
    simp only [hr, gives_bind, gives_raiseIf, gives_orRaise, gives_write] at h
    obtain ⟨_, _, ⟨-, rfl⟩, states, _, ⟨hi, rfl⟩, rfl⟩ := h
    have hnone : u.store.evaluationStates.get item.subscriptionId = none := Table.get_of_insert hi
    refine ⟨fun E => ?_, by rw [hnone]; rfl, ?_⟩
    · have hsame : Extends (· = item.subscriptionId) E u u := .refl _
      refine { hsame with states := fun id hid => ?_ }
      dsimp only
      rw [Table.get_insert hi, if_neg (show (stateRow item fence).subscriptionId ≠ id from fun hk => hid hk.symm)]
    dsimp only
    rw [Table.get_insert hi]
    exact if_pos rfl
  | some revision =>
    simp only [hr, gives_bind, gives_raiseIf, gives_write] at h
    obtain ⟨_, _, rfl, hm, rfl⟩ := h
    obtain ⟨row, hrow, hrev⟩ := (Table.matching_eq_one _ _ _).mp (Decidable.not_not.mp hm)
    have hkey : row.subscriptionId = item.subscriptionId := Table.key_of_get hrow
    refine ⟨fun E => ?_, ?_, ?_⟩
    · have hsame : Extends (· = item.subscriptionId) E u u := .refl _
      refine { hsame with states := fun id hid => ?_ }
      dsimp only
      rw [Table.get_update]
      cases hs : u.store.evaluationStates.get id with
      | none => rfl
      | some r =>
        have hne : r.subscriptionId ≠ item.subscriptionId := by
          rw [Table.key_of_get hs]
          exact hid
        simp [hne]
    · rw [hrow]
      exact congrArg some (of_decide_eq_true hrev)
    · dsimp only
      rw [Table.get_update, hrow]
      simp only [Option.map_some, hkey, of_decide_eq_true hrev, decide_true, Bool.and_self, ↓reduceIte]
      rfl

variable {event : DeliveryEvent}

theorem insertEvent_raises {e : Failure}
    (h : (insertEvent event fence).Raises u e u') : e = .uniqueConstraintViolation := by
  simp only [insertEvent, raises_bind, raises_read, raises_raiseIf, raises_orRaise, raises_write, and_false,
    exists_false, or_false, false_or] at h
  rcases h with ⟨_, _, -, ⟨-, rfl, -⟩ | ⟨_, _, -, -, rfl, -⟩⟩
  · rfl
  · rfl

theorem insertLatestAttempt_gives (h : (insertLatestAttempt event).Gives u x u') :
    u'.store.events = u.store.events ∧ ∀ S E, Extends S E u u' := by
  unfold insertLatestAttempt at h
  cases ha : event.attempt with
  | none =>
    simp only [ha, gives_pure] at h
    rw [← h.2]
    exact ⟨rfl, fun S E => .refl _⟩
  | some attempt =>
    simp only [ha, Delivery.insertAttempt, gives_bind, gives_read, gives_raiseIf, gives_orRaise, gives_write] at h
    obtain ⟨_, _, ⟨rfl, rfl⟩, _, _, ⟨-, rfl⟩, attempts, _, ⟨-, rfl⟩, rfl⟩ := h
    exact ⟨rfl, fun S E => .of_same rfl rfl rfl rfl rfl rfl rfl⟩

theorem upsertEvent_gives {event a : DeliveryEvent}
    (h : (upsertEvent event fence).Gives u a u') :
    (∀ S, Extends S (· = event.id) u u') ∧ u.store.events.get event.id = none ∧
      ∃ row, u'.store.events.get event.id = some row ∧ row.event = event := by
  simp only [upsertEvent, gives_bind, gives_read, gives_raiseIf, gives_rescue, raises_bind, raises_pure, and_false,
    exists_false, or_false] at h
  obtain ⟨_, _, ⟨rfl, rfl⟩, _, _, ⟨-, rfl⟩, existing, v, hr, h⟩ := h
  rcases hr with ⟨_, w, hi, hp⟩ | ⟨e, w, he, hh⟩
  · obtain ⟨rfl, rfl⟩ := gives_pure.mp hp
    simp only [insertEvent, gives_bind, gives_read, gives_raiseIf, gives_orRaise, gives_write] at hi
    obtain ⟨_, _, ⟨rfl, rfl⟩, _, _, ⟨-, rfl⟩, events, _, ⟨hins, rfl⟩, rfl⟩ := hi
    simp only [gives_bind, gives_pure] at h
    obtain ⟨_, w, hattempt, -, rfl⟩ := h
    have hevents := insertLatestAttempt_gives hattempt
    have hfresh : u.store.events.get event.id = none := Table.get_of_insert hins
    have hid : (eventRow event fence).id = event.id := rfl
    refine ⟨fun S => ?_, hfresh, eventRow event fence, ?_, rfl⟩
    · refine Extends.trans ?_ (hevents.2 S (· = event.id))
      have hsame : Extends S (· = event.id) u u := .refl _
      refine { hsame with events := fun id hne => ?_, stored := fun id hn => ?_ }
      · dsimp only
        rw [Table.get_insert hins, hid, if_neg (Ne.symm hne)]
      dsimp only at hn
      rw [Table.get_insert hins] at hn
      split at hn
      · cases hn
      · exact hn
    · rw [hevents.1, Table.get_insert hins, hid, if_pos rfl]
  · rw [insertEvent_raises he] at hh
    simp only [existingEvent, ↓reduceIte, gives_raise] at hh

variable {a : DigestMemberAssociation}

theorem insertDigestMember_gives (h : (insertDigestMember a).Gives u x u') :
    (∀ S E, Extends S E u u') ∧ u'.store.events = u.store.events ∧
      u'.store.members.get (a.windowId, routeKey a.recipient, a.member) =
        some ⟨a.windowId, routeKey a.recipient, a⟩ := by
  simp only [insertDigestMember, gives_bind, gives_read, gives_raiseIf, gives_orRaise, gives_write] at h
  obtain ⟨_, _, ⟨rfl, rfl⟩, _, _, ⟨-, rfl⟩, members, _, ⟨hi, rfl⟩, rfl⟩ := h
  refine ⟨fun S E => ?_, rfl, ?_⟩
  · have hsame : Extends S E u u := .refl _
    exact { hsame with members := fun key row hr => Table.kept_of_insert hi hr }
  dsimp only
  rw [Table.get_insert hi]
  exact if_pos rfl

theorem insertDigestMembers_gives {associations : List DigestMemberAssociation}
    (h : (insertDigestMembers associations).Gives u x u') :
    (∀ S E, Extends S E u u') ∧ ∀ a ∈ associations,
      u'.store.members.get (a.windowId, routeKey a.recipient, a.member) =
        some ⟨a.windowId, routeKey a.recipient, a⟩ := by
  induction associations generalizing u with
  | nil =>
    simp only [insertDigestMembers, gives_pure] at h
    rw [← h.2]
    exact ⟨fun S E => .refl _, fun a ha => by cases ha⟩
  | cons association rest ih =>
    simp only [insertDigestMembers, gives_bind] at h
    obtain ⟨_, v, ha, h⟩ := h
    obtain ⟨hext, -, hmember⟩ := insertDigestMember_gives ha
    obtain ⟨hrest, hmembers⟩ := ih h
    refine ⟨fun S E => (hext S E).trans (hrest S E), fun a ha => ?_⟩
    rcases List.mem_cons.mp ha with rfl | ha
    · exact (hrest (fun _ => False) (fun _ => False)).members _ _ hmember
    · exact hmembers a ha

inductive Published (s : Database) (e : DeliveryEvent) (row : EventRow) : Prop
  | plain (hc : e.publicContribution = none) (he : row.event = e)
  | joined (windowId : String) (member : MemberRow) (he : row.event = e)
      (hm : s.members.get (windowId, routeKey e.recipient, digestMember e) = some member)
  | suppressed (windowId : String) (note : SuppressedRow) (hc : e.publicContribution ≠ none)
      (he : row.event.toEventFields = { e.toEventFields with state := .cancelled })
      (hs : s.suppressed.get (windowId, e.id) = some note)

variable {e : DeliveryEvent} {row : EventRow}

theorem Published.extends {S : String → Prop} {E : EventId → Prop}
    (h : Published u.store e row) (hext : Extends S E u u') : Published u'.store e row := by
  cases h with
  | plain hc he => exact .plain hc he
  | joined windowId member he hm => exact .joined windowId member he (hext.members _ _ hm)
  | suppressed windowId note hc he hs => exact .suppressed windowId note hc he (hext.suppressed _ _ hs)

variable {collectedAt : Instant}

theorem suppressEvent_gives {windowId reason : String} (hrow : u.store.events.get e.id = some row) (hc : e.publicContribution ≠ none)
    (h : (suppressEvent e windowId reason collectedAt).Gives u x u') :
    (∀ S, Extends S (· = e.id) u u') ∧
      ∃ row', u'.store.events.get e.id = some row' ∧ Published u'.store e row' := by
  simp only [suppressEvent, updateEvents, gives_bind, gives_write, gives_ofExcept, DeliveryEvent.build_eq_ok, gives_read,
    gives_pure] at h
  obtain ⟨_, _, rfl, cancelled, _, ⟨hcancelled, rfl⟩, _, _, ⟨_, _, ⟨rfl, rfl⟩, _, _, rfl, -, rfl⟩, -, rfl⟩ := h
  have hid : row.id = e.id := Table.key_of_get hrow
  refine ⟨fun S => ?_, { row with state := .cancelled, event := cancelled }, ?_, ?_⟩
  · have hsame : Extends S (· = e.id) u u := .refl _
    refine { hsame with
      suppressed := fun key note hn => Table.kept_of_insertOrIgnore hn
      events := fun id hne => ?_
      stored := fun id hn => ?_ }
    · dsimp only
      rw [Table.get_update]
      cases hr : u.store.events.get id with
      | none => rfl
      | some r =>
        have hkey : r.id ≠ e.id := by
          rw [Table.key_of_get hr]
          exact hne
        simp [hkey]
    · dsimp only at hn
      rw [Table.get_update] at hn
      simpa using hn
  · dsimp only
    rw [Table.get_update, hrow]
    simp [hid]
  · have hnote : ∃ note, ((u.store.suppressed.insert ⟨windowId, e.id, reason, collectedAt⟩).getD
        u.store.suppressed).get (windowId, e.id) = some note := by
      cases hi : u.store.suppressed.insert ⟨windowId, e.id, reason, collectedAt⟩ with
      | none => exact Table.insert_eq_none.mp hi
      | some t => exact ⟨_, by rw [Option.getD_some, Table.get_insert hi]; exact if_pos rfl⟩
    obtain ⟨note, hnote⟩ := hnote
    exact .suppressed windowId note hc hcancelled hnote

theorem DigestMemberAssociation.build_eq_ok {f : AssociationFields}
    (h : DigestMemberAssociation.build f = .ok a) : a.toAssociationFields = f := by
  unfold DigestMemberAssociation.build at h
  split at h
  · rw [← Except.ok.inj h]
  · cases h

theorem createWindow_gives {windowId : String}
    (h : (createWindow windowId collectedAt).Gives u x u') :
    (∀ S E, Extends S E u u') ∧ u'.store.events = u.store.events := by
  simp only [createWindow, gives_bind, gives_read] at h
  obtain ⟨_, _, ⟨rfl, rfl⟩, h⟩ := h
  rw [gives_ite] at h
  rcases h with ⟨-, h⟩ | ⟨-, h⟩
  · rw [gives_write.mp h]
    exact ⟨fun S E => .of_same rfl rfl rfl rfl rfl rfl rfl, rfl⟩
  · rw [← (gives_pure.mp h).2]
    exact ⟨fun S E => .refl _, rfl⟩

theorem joinAggregate_gives {identity windowId : String}
    (h : (joinAggregate e identity windowId collectedAt).Gives u x u') :
    (∀ S E, Extends S E u u') ∧ u'.store.events = u.store.events ∧
      ∃ member, u'.store.members.get (windowId, routeKey e.recipient, digestMember e) = some member := by
  simp only [joinAggregate, gives_bind] at h
  obtain ⟨_, v, hw, _, w, hi, association, _, ha, h⟩ := h
  have hwindow := createWindow_gives hw
  have hidentity : (∀ S E, Extends S E v w) ∧ w.store.events = v.store.events := by
    rw [gives_write.mp hi]
    exact ⟨fun S E => .of_same rfl rfl rfl rfl rfl rfl rfl, rfl⟩
  rw [gives_ofExcept] at ha
  obtain ⟨ha, rfl⟩ := ha
  have hfields := DigestMemberAssociation.build_eq_ok ha
  obtain ⟨hext, hevents, hmember⟩ := insertDigestMember_gives h
  refine ⟨fun S E => (hwindow.1 S E).trans ((hidentity.1 S E).trans (hext S E)), ?_, ?_⟩
  · rw [hevents, hidentity.2, hwindow.2]
  · rw [hfields] at hmember
    exact ⟨_, hmember⟩

theorem attachPublicEvent_gives {record : SubscriptionRecord} (hrow : u.store.events.get e.id = some row) (he : row.event = e)
    (h : (attachPublicEvent e record collectedAt).Gives u x u') :
    (∀ S, Extends S (· = e.id) u u') ∧
      ∃ row', u'.store.events.get e.id = some row' ∧ Published u'.store e row' := by
  unfold attachPublicEvent at h
  cases hc : e.publicContribution with
  | none =>
    simp only [hc, gives_pure] at h
    rw [← h.2]
    exact ⟨fun S => .refl _, row, hrow, .plain hc he⟩
  | some contribution =>
    simp only [hc, gives_bind, gives_raiseIf, gives_read] at h
    obtain ⟨_, _, ⟨-, rfl⟩, _, _, ⟨rfl, rfl⟩, h⟩ := h
    rw [gives_ite] at h
    rcases h with ⟨hm, h⟩ | ⟨-, h⟩
    · obtain ⟨member, hm⟩ := Option.isSome_iff_exists.mp hm
      rw [← (gives_pure.mp h).2]
      exact ⟨fun S => .refl _, row, hrow, .joined _ member he hm⟩
    split at h
    · exact suppressEvent_gives hrow (by simp [hc]) h
    simp only [gives_bind, gives_raiseIf] at h
    obtain ⟨_, _, ⟨-, rfl⟩, h⟩ := h
    obtain ⟨hext, hevents, member, hm⟩ := joinAggregate_gives h
    refine ⟨fun S => hext S _, row, by rw [hevents]; exact hrow, .joined _ member he hm⟩

theorem applyEvents_gives {subscriptionId : String}
    {events : List DeliveryEvent} (h : (applyEvents subscriptionId collectedAt fence events).Gives u x u')
    (hids : (events.map fun e => e.id).Nodup) :
    (∀ S, Extends S (· ∈ events.map fun e => e.id) u u') ∧ ∀ e ∈ events, u.store.events.get e.id = none ∧
      ∃ row, u'.store.events.get e.id = some row ∧ Published u'.store e row := by
  induction events generalizing u with
  | nil =>
    simp only [applyEvents, gives_pure] at h
    rw [← h.2]
    exact ⟨fun S => .refl _, fun e he => by cases he⟩
  | cons event rest ih =>
    simp only [applyEvents, gives_bind, gives_read, gives_orRaise] at h
    obtain ⟨_, v, hu, _, _, ⟨rfl, rfl⟩, source, _, ⟨-, rfl⟩, _, w, ha, h⟩ := h
    obtain ⟨hupsert, hfresh, row, hrow, he⟩ := upsertEvent_gives hu
    obtain ⟨hattach, row', hrow', hp⟩ := attachPublicEvent_gives hrow he ha
    obtain ⟨hn, hids⟩ := List.nodup_cons.mp hids
    obtain ⟨hrest, hevents⟩ := ih h hids
    have hfirst : ∀ S, Extends S (· = event.id) u w := fun S => (hupsert S).trans (hattach S)
    refine ⟨fun S => ?_, fun e hmem => ?_⟩
    · refine ((hfirst S).mono (fun _ h => h) fun id h => ?_).trans ((hrest S).mono (fun _ h => h) fun id h => ?_)
      · exact List.mem_cons.mpr (.inl h)
      · exact List.mem_cons_of_mem _ h
    rcases List.mem_cons.mp hmem with rfl | hmem
    · refine ⟨hfresh, row', ?_, hp.extends (hrest fun _ => False)⟩
      rw [(hrest fun _ => False).events _ hn, hrow']
    · obtain ⟨hnone, hpub⟩ := hevents e hmem
      exact ⟨(hfirst fun _ => False).stored _ hnone, hpub⟩

structure Advanced (item : SubscriptionEvaluationCommit) (s s' : Database) : Prop where
  expected : (s.evaluationStates.get item.subscriptionId).map EvaluationStateRow.revision = item.expectedStateRevision
  state : ∃ row, s'.evaluationStates.get item.subscriptionId = some row ∧ row.state = item.state ∧
    row.cursor = item.cursor ∧ row.revision = item.state.revision ∧
    row.revision = ((s.evaluationStates.get item.subscriptionId).map EvaluationStateRow.revision).getD 0 + 1
  projected : ∀ o ∈ item.projectedObservation,
    s'.observations.get o.observationId = some ⟨o.observationId, jobKey o.key, o⟩
  events : ∀ e ∈ item.deliveryEvents, s.events.get e.id = none ∧
    ∃ row, s'.events.get e.id = some row ∧ Published s' e row
  members : ∀ a ∈ item.digestMembers, s'.members.get (a.windowId, routeKey a.recipient, a.member) =
    some ⟨a.windowId, routeKey a.recipient, a⟩

namespace Advanced

variable {item : SubscriptionEvaluationCommit} {S : String → Prop} {E : EventId → Prop} {s s' : Database}

theorem event_subscription (item : SubscriptionEvaluationCommit) :
    ∀ e ∈ item.deliveryEvents, e.subscriptionId = item.subscriptionId := by
  have hv := item.valid
  simp only [EvaluationCommitFields.problem, check_eq_none] at hv
  obtain ⟨-, -, -, -, -, hs, -⟩ := hv
  intro e he
  simp only [List.any_eq_true, not_exists, not_and] at hs
  have := hs e he
  simp only [Bool.or_eq_true, decide_eq_true_eq, not_or, Decidable.not_not] at this
  exact this.1

theorem events_nodup (item : SubscriptionEvaluationCommit) : (item.deliveryEvents.map fun e => e.id).Nodup := by
  have hv := item.valid
  simp only [EvaluationCommitFields.problem, check_eq_none] at hv
  obtain ⟨-, -, -, -, -, -, hn, -⟩ := hv
  have hkeys : (item.deliveryEvents.map fun e => (e.eventKey, e.eventVersion)).Nodup := Decidable.not_not.mp hn
  refine List.Nodup.of_map (fun id : EventId => (id.eventKey, id.eventVersion)) ?_
  rw [List.map_map]
  exact hkeys

theorem next_revision (item : SubscriptionEvaluationCommit) :
    item.state.revision = item.expectedStateRevision.getD 0 + 1 := by
  have hv := item.valid
  simp only [EvaluationCommitFields.problem, check_eq_none] at hv
  obtain ⟨-, -, -, hr, -⟩ := hv
  rw [Decidable.not_not.mp hr, EvaluationCommitFields.nextStateRevision]
  cases item.expectedStateRevision with
  | none => rfl
  | some revision => rfl

theorem later (h : Advanced item s u.store) (hext : Extends S E u u') (hs : ¬ S item.subscriptionId)
    (he : ∀ e ∈ item.deliveryEvents, ¬ E e.id) : Advanced item s u'.store where
  expected := h.expected
  state := by
    rw [hext.states _ hs]
    exact h.state
  projected := fun o ho => hext.observations _ _ (h.projected o ho)
  events := by
    intro e hmem
    obtain ⟨hn, row, hrow, hp⟩ := h.events e hmem
    exact ⟨hn, row, by rw [hext.events _ (he e hmem)]; exact hrow, hp.extends hext⟩
  members := fun a ha => hext.members _ _ (h.members a ha)

theorem earlier (hext : Extends S E u u') (hs : ¬ S item.subscriptionId) (h : Advanced item u'.store s') :
    Advanced item u.store s' where
  expected := by
    rw [← hext.states _ hs]
    exact h.expected
  state := by
    rw [← hext.states _ hs]
    exact h.state
  projected := h.projected
  events := by
    intro e hmem
    obtain ⟨hn, hp⟩ := h.events e hmem
    exact ⟨hext.stored _ hn, hp⟩
  members := h.members

end Advanced

def ofSubscription (subscriptionId : String) (id : EventId) : Prop := id.subscriptionId = subscriptionId

theorem insertProjected_gives {projected : Option Observation} (h : (insertProjected projected).Gives u x u') :
    (∀ S E, Extends S E u u') ∧ ∀ o ∈ projected,
      u'.store.observations.get o.observationId = some ⟨o.observationId, jobKey o.key, o⟩ := by
  cases projected with
  | none =>
    simp only [insertProjected, gives_pure] at h
    rw [← h.2]
    exact ⟨fun S E => .refl _, fun o ho => by cases ho⟩
  | some o =>
    obtain ⟨hext, -, hrow⟩ := insertObservation_gives h
    refine ⟨hext, fun o' ho => ?_⟩
    obtain rfl := Option.some.inj ho
    exact hrow

theorem applyItem_gives (h : (applyItem collectedAt fence item).Gives u x u') :
    Extends (· = item.subscriptionId) (ofSubscription item.subscriptionId) u u' ∧
      Advanced item u.store u'.store := by
  simp only [applyItem, gives_bind] at h
  obtain ⟨_, v, hp, _, w, hs, _, z, he, h⟩ := h
  obtain ⟨hprojected, hobservation⟩ := insertProjected_gives hp
  obtain ⟨hstate, hexpected, hrow⟩ := writeState_gives hs
  obtain ⟨hevents, hpublished⟩ := applyEvents_gives he (Advanced.events_nodup item)
  obtain ⟨hmembers, hmember⟩ := insertDigestMembers_gives h
  have hown : ∀ id, id ∈ item.deliveryEvents.map (fun e => e.id) → ofSubscription item.subscriptionId id := by
    intro id hid
    obtain ⟨e, hmem, rfl⟩ := List.mem_map.mp hid
    exact Advanced.event_subscription item e hmem
  have hbefore : v.store.evaluationStates.get item.subscriptionId = u.store.evaluationStates.get item.subscriptionId :=
    (hprojected (fun _ => False) (fun _ => False)).states _ id
  have hnone : Extends (fun _ => False) (fun id => id ∈ item.deliveryEvents.map fun e => e.id) w u' :=
    (hevents _).trans (hmembers _ _)
  refine ⟨?_, ?_⟩
  · refine (hprojected _ _).trans ((hstate _).trans (Extends.trans ?_ (hmembers _ _)))
    exact (hevents _).mono (fun _ h => h) hown
  refine ⟨by rw [← hbefore]; exact hexpected, ⟨stateRow item fence, ?_, rfl, rfl, rfl, ?_⟩, fun o ho => ?_, ?_, hmember⟩
  · rw [hnone.states _ id, hrow]
  · rw [← hbefore, hexpected]
    exact Advanced.next_revision item
  · exact hnone.observations _ _ ((hstate fun _ => False).observations _ _ (hobservation o ho))
  intro e hmem
  obtain ⟨hfresh, row, hrow, hpub⟩ := hpublished e hmem
  refine ⟨?_, row, ?_, hpub.extends (hmembers (fun _ => False) (fun _ => False))⟩
  · exact (hprojected (fun _ => False) (fun _ => False)).stored _ ((hstate fun _ => False).stored _ hfresh)
  · rw [(hmembers (fun _ => False) (fun _ => False)).events _ id, hrow]

theorem applyItems_gives
    {items : List SubscriptionEvaluationCommit} (h : (applyItems collectedAt fence items).Gives u x u')
    (hids : (items.map fun i => i.subscriptionId).Nodup) :
    Extends (· ∈ items.map fun i => i.subscriptionId)
        (fun id => id.subscriptionId ∈ items.map fun i => i.subscriptionId) u u' ∧
      ∀ item ∈ items, Advanced item u.store u'.store := by
  induction items generalizing u with
  | nil =>
    simp only [applyItems, gives_pure] at h
    rw [← h.2]
    exact ⟨.refl _, fun i hi => by cases hi⟩
  | cons item rest ih =>
    simp only [applyItems, gives_bind] at h
    obtain ⟨_, v, hi, h⟩ := h
    obtain ⟨hfirst, hadvanced⟩ := applyItem_gives hi
    obtain ⟨hn, hids⟩ := List.nodup_cons.mp hids
    obtain ⟨hrest, hitems⟩ := ih h hids
    refine ⟨?_, fun i hmem => ?_⟩
    · refine (hfirst.mono (fun id h => ?_) fun id h => ?_).trans (hrest.mono (fun id h => ?_) fun id h => ?_)
      · exact List.mem_cons.mpr (.inl h)
      · exact List.mem_cons.mpr (.inl h)
      · exact List.mem_cons_of_mem _ h
      · exact List.mem_cons_of_mem _ h
    rcases List.mem_cons.mp hmem with rfl | hmem
    · refine hadvanced.later hrest hn fun e he => ?_
      have hsub : e.id.subscriptionId = i.subscriptionId := Advanced.event_subscription i e he
      rw [hsub]
      exact hn
    refine Advanced.earlier hfirst ?_ (hitems i hmem)
    intro he
    exact hn (List.mem_map.mpr ⟨i, hmem, he⟩)

theorem updateCollectionJobs_gives {p : CollectionJobRow → Bool} {f : CollectionJobRow → CollectionJobRow}
    {hf : ∀ r, (f r).jobKey = r.jobKey} {n : ℕ} (h : (updateCollectionJobs p f hf).Gives u n u') :
    u' = { u with store := { u.store with collectionJobs := u.store.collectionJobs.update p f hf } } := by
  simp only [updateCollectionJobs, gives_bind, gives_read, gives_write, gives_pure] at h
  obtain ⟨_, _, ⟨rfl, rfl⟩, _, _, rfl, -, rfl⟩ := h
  rfl

variable {lease : ExecutionLease}

theorem endLease_gives {dueAt : Option Instant → Option Instant}
    (h : (endLease lease dueAt).Gives u x u') :
    u' = { u with store := { u.store with
      collectionJobs := u.store.collectionJobs.update
        (fun r => decide (r.jobKey = jobKey lease.key) && r.leaseToken = some lease.token)
        (fun r => { r with leaseToken := none, leaseExpiresAt := none, dueAt := dueAt r.dueAt }) fun _ => rfl } } := by
  simp only [endLease, gives_bind, gives_pure] at h
  obtain ⟨_, _, h, -, rfl⟩ := h
  exact updateCollectionJobs_gives h

def finishedJob (commit : ObservationEvaluationCommit) (nextDueAt : Option Instant) (row : CollectionJobRow) :
    CollectionJobRow :=
  { row with
    leaseToken := none
    leaseExpiresAt := none
    dueAt := nextDue commit nextDueAt row.cadence
    observationId :=
      if commit.observation.completeness = .failed then row.observationId else some commit.observation.observationId }

structure Committed (lease : ExecutionLease) (commit : ObservationEvaluationCommit) (nextDueAt : Option Instant)
    (row : CollectionJobRow) (s s' : Database) : Prop where
  fresh : s.observations.get commit.observation.observationId = none
  observation : s'.observations.get commit.observation.observationId =
    some ⟨commit.observation.observationId, jobKey commit.observation.key, commit.observation⟩
  job : s'.collectionJobs.get (jobKey lease.key) = some (finishedJob commit nextDueAt row)
  due : (finishedJob commit nextDueAt row).dueAt.isSome
  others : ∀ key, key ≠ jobKey lease.key → s'.collectionJobs.get key = s.collectionJobs.get key
  items : ∀ item ∈ commit.subscriptions, Advanced item s s'

variable (commit : ObservationEvaluationCommit)

theorem subscriptions_nodup :
    (commit.subscriptions.map fun i => i.subscriptionId).Nodup := by
  have hv := commit.valid
  simp only [ObservationCommitFields.problem, check_eq_none] at hv
  exact Decidable.not_not.mp hv.1

theorem failed_empty (h : commit.observation.completeness = .failed) :
    commit.subscriptions = [] := by
  have hv := commit.valid
  simp only [ObservationCommitFields.problem, check_eq_none] at hv
  by_contra hne
  exact hv.2.1 ⟨h, hne⟩

theorem Advanced.frame {s s' s'' : Database} (h : Advanced item s s')
    (ho : s''.observations = s'.observations) (hm : s''.members = s'.members) (hp : s''.suppressed = s'.suppressed)
    (ht : s''.evaluationStates = s'.evaluationStates) (he : s''.events = s'.events) : Advanced item s s'' := by
  have hsame : Extends (fun _ => False) (fun _ => False) ⟨s', []⟩ ⟨{ s'' with collectionJobs := s'.collectionJobs }, []⟩ :=
    .of_same rfl rfl ho hm hp ht he
  have hlater := h.later hsame id fun _ _ => id
  exact ⟨hlater.expected, hlater.state, hlater.projected,
    fun e hmem => by
      obtain ⟨hn, row, hrow, hpub⟩ := hlater.events e hmem
      refine ⟨hn, row, hrow, ?_⟩
      cases hpub with
      | plain hc he => exact .plain hc he
      | joined windowId member he hm => exact .joined windowId member he hm
      | suppressed windowId note hc he hs => exact .suppressed windowId note hc he hs,
    hlater.members⟩

variable {commit : ObservationEvaluationCommit} {row : CollectionJobRow}

theorem applyObservation_gives
    (hrow : u.store.collectionJobs.get (jobKey lease.key) = some row)
    (h : (applyObservation lease commit fence).Gives u x u') :
    u'.commitGuards = u.commitGuards ∧
      (∀ id r, u.store.observations.get id = some r → u'.store.observations.get id = some r) ∧
      u'.store.collectionJobs.get (jobKey lease.key) = some { row with
        observationId := if commit.observation.completeness = .failed then row.observationId
          else some commit.observation.observationId } ∧
      (∀ key, key ≠ jobKey lease.key → u'.store.collectionJobs.get key = u.store.collectionJobs.get key) ∧
      ∀ item ∈ commit.subscriptions, Advanced item u.store u'.store := by
  unfold applyObservation at h
  by_cases hf : commit.observation.completeness = .failed
  · simp only [hf, ↓reduceIte, gives_pure] at h ⊢
    rw [← h.2, failed_empty commit hf]
    exact ⟨rfl, fun _ _ h => h, hrow, fun _ _ => rfl, fun i hi => by cases hi⟩
  simp only [hf, ↓reduceIte, gives_bind, gives_pure] at h ⊢
  obtain ⟨_, v, ha, _, w, hj, -, rfl⟩ := h
  obtain ⟨hext, hitems⟩ := applyItems_gives ha (subscriptions_nodup commit)
  rw [updateCollectionJobs_gives hj]
  have hkey : row.jobKey = jobKey lease.key := Table.key_of_get hrow
  refine ⟨hext.guards, hext.observations, ?_, fun key hne => ?_, fun i hi => (hitems i hi).frame rfl rfl rfl rfl rfl⟩
  · dsimp only
    rw [Table.get_update, hext.jobs, hrow]
    simp [hkey]
  · dsimp only
    rw [Table.get_update_other hne fun r hr => of_decide_eq_true hr, hext.jobs]

theorem writeCommit_gives {nextDueAt : Option Instant}
    (hrow : u.store.collectionJobs.get (jobKey lease.key) = some row) (htoken : row.leaseToken = some lease.token)
    (h : (writeCommit lease commit nextDueAt row.cadence fence).Gives u x u') :
    u'.commitGuards = u.commitGuards ∧ Committed lease commit nextDueAt row u.store u'.store := by
  simp only [writeCommit, gives_bind, gives_orRaise] at h
  obtain ⟨_, v, ho, _, w, ha, due, _, ⟨hdue, rfl⟩, h⟩ := h
  obtain ⟨hobservation, hfresh, hstored⟩ := insertObservation_gives ho
  have hsame := hobservation (fun _ => False) (fun _ => False)
  obtain ⟨hguards, hkept, hjob, hothers, hitems⟩ := applyObservation_gives (by rw [hsame.jobs]; exact hrow) ha
  have hend := endLease_gives h
  have hkey : row.jobKey = jobKey lease.key := Table.key_of_get hrow
  refine ⟨?_, hfresh, ?_, ?_, by simp [finishedJob, hdue], fun key hne => ?_, fun i hi => ?_⟩
  · rw [hend, ← hsame.guards]
    exact hguards
  · rw [hend]
    exact hkept _ _ hstored
  · rw [hend]
    dsimp only
    rw [Table.get_update, hjob]
    simp [hkey, htoken, finishedJob, hdue]
  · rw [hend]
    dsimp only
    rw [Table.get_update_other hne fun r hr => of_decide_eq_true (Bool.and_eq_true_iff.mp hr).1, hothers key hne,
      hsame.jobs]
  · rw [hend]
    exact (Advanced.earlier hsame id (hitems i hi)).frame rfl rfl rfl rfl rfl

structure Authorized (bindings : GateBindings) (lease : ExecutionLease) (collectedAt committedAt authorizedAt : Instant)
    (row : CollectionJobRow) (s : Database) : Prop where
  stored : s.collectionJobs.get (jobKey lease.key) = some row
  fence : fenceHolds bindings s lease row = true
  lease : underLease row lease = true
  expiry : ∃ expires, row.leaseExpiresAt = some expires ∧ collectedAt < expires ∧ committedAt < expires ∧
    authorizedAt < expires

variable {bindings : GateBindings} {lease : ExecutionLease} {commit : ObservationEvaluationCommit}
  {nextDueAt : Option Instant} {guard : CommitGuard} {committedAt authorizedAt : Instant} {s s' : Database}

theorem commitBody_gives {answer : Bool}
    (h : (commitBody bindings lease commit nextDueAt guard committedAt authorizedAt).Gives ⟨s, []⟩ answer u') :
    (answer = false ∧ u'.store = s) ∨ (answer = true ∧ ∃ row,
      ((∀ g ∈ u'.commitGuards, g u'.store = none) →
        Authorized bindings lease commit.observation.collectedAt committedAt authorizedAt row s) ∧
      Committed lease commit nextDueAt row s u'.store) := by
  simp only [commitBody, gives_bind, gives_ofExcept, gives_read] at h
  obtain ⟨_, _, ⟨-, rfl⟩, _, _, ⟨rfl, rfl⟩, h⟩ := h
  split at h
  · exact .inl ⟨(gives_pure.mp h).1, by rw [← (gives_pure.mp h).2]⟩
  rename_i row hrow
  rw [gives_ite] at h
  rcases h with ⟨-, h⟩ | ⟨hfence, h⟩
  · exact .inl ⟨(gives_pure.mp h).1, by rw [← (gives_pure.mp h).2]⟩
  rw [gives_ite] at h
  rcases h with ⟨-, h⟩ | ⟨hunder, h⟩
  · exact .inl ⟨(gives_pure.mp h).1, by rw [← (gives_pure.mp h).2]⟩
  simp only [gives_bind, gives_orRaise] at h
  obtain ⟨expires, _, ⟨hexpires, rfl⟩, h⟩ := h
  rw [gives_ite] at h
  rcases h with ⟨-, h⟩ | ⟨hlive, h⟩
  · exact .inl ⟨(gives_pure.mp h).1, by rw [← (gives_pure.mp h).2]⟩
  simp only [gives_bind, gives_addCommitGuard, gives_pure] at h
  obtain ⟨_, _, rfl, _, v, hw, rfl, rfl⟩ := h
  have hunder : underLease row lease = true := by simpa using hunder
  obtain ⟨hguards, hcommit⟩ := writeCommit_gives hrow (underLease_token hunder) hw
  have hlive := not_or.mp hlive
  refine .inr ⟨rfl, row, fun hall => ?_, hcommit⟩
  refine ⟨hrow, by simpa using (not_or.mp hfence).1, hunder, expires, hexpires, lt_of_not_ge hlive.1,
    lt_of_not_ge (not_or.mp hlive.2).1, ?_⟩
  have hedge := hall _ (by rw [hguards]; exact List.mem_append_right _ (List.mem_singleton.mpr rfl))
  split at hedge
  · cases hedge
  · exact lt_of_not_ge fun hle => by rw [if_pos hle] at hedge; cases hedge

theorem commit_true
    (h : commitObservationWithEvaluations bindings lease commit nextDueAt guard committedAt authorizedAt s =
      (.ok true, s')) :
    ∃ row, Authorized bindings lease commit.observation.collectedAt committedAt authorizedAt row s ∧
      Committed lease commit nextDueAt row s s' := by
  unfold commitObservationWithEvaluations at h
  split at h
  · cases h
  split at h
  · cases h
  split at h
  · cases h
  obtain ⟨gs, hbody, hguards⟩ := transaction_ok.mp h
  rcases commitBody_gives hbody with ⟨hanswer, -⟩ | ⟨-, row, hauthorized, hcommitted⟩
  · cases hanswer
  · exact ⟨row, hauthorized hguards, hcommitted⟩

theorem commit_unchanged
    (h : (commitObservationWithEvaluations bindings lease commit nextDueAt guard committedAt authorizedAt s).1 ≠
      .ok true) :
    (commitObservationWithEvaluations bindings lease commit nextDueAt guard committedAt authorizedAt s).2 = s := by
  unfold commitObservationWithEvaluations at h ⊢
  split
  · rfl
  split
  · rfl
  rename_i hkey hdue
  rw [if_neg hkey, if_neg hdue] at h
  rcases transaction_cases (commitBody bindings lease commit nextDueAt guard committedAt authorizedAt) s with
    ⟨answer, s', ht⟩ | ⟨e, ht⟩
  · rw [ht] at h ⊢
    obtain ⟨gs, hbody, -⟩ := transaction_ok.mp ht
    rcases commitBody_gives hbody with ⟨-, hsame⟩ | ⟨rfl, -⟩
    · exact hsame
    · exact absurd rfl h
  · rw [ht]
    cases e <;> rfl

end GameLink.Scheduler
