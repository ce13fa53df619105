import Sky548.Calendar.CalendarMgr

/-!
# What a calendar request may change

No request is checked against the player who sends it, so that any player may change any event
(`update_of_stranger`). Each changes only what it names (`handle_applied`).
-/

namespace Sky548

open List

namespace CalendarMgr

variable {s : CalendarMgr} {p : Sender}

/-- The player created the event, or has an invite of it as a moderator or its owner. -/
def Moderates (s : CalendarMgr) (guid eventId : Nat) : Prop :=
  (∃ e ∈ s.events, e.eventId = eventId ∧ e.creatorGUID = guid) ∨
    ∃ i ∈ s.invites, i.eventId = eventId ∧ i.invitee = guid ∧
      (i.rank = CALENDAR_RANK_MODERATOR ∨ i.rank = CALENDAR_RANK_OWNER)

/-- A request is made by who may make it. -/
structure Respectful (p : Sender) (s s' : CalendarMgr) (request : CalendarRequest) : Prop where
  events : ∀ e ∈ s.events, e ∉ s'.events → Moderates s p.guid e.eventId
  rsvp : ∀ eventId inviteId status now, request = .rsvp eventId inviteId status now →
    ∀ i ∈ s.invites, i ∉ s'.invites → i.invitee = p.guid ∧ i.inviteId = inviteId ∧
      i.eventId = eventId ∧ (status = CALENDAR_STATUS_REMOVED ∨
        ∀ e ∈ s.events, e.eventId = eventId → e.isLocked = false)
  invites : (∀ eventId inviteId status now, request ≠ .rsvp eventId inviteId status now) →
    ∀ i ∈ s.invites, i ∉ s'.invites → Moderates s p.guid i.eventId
  creator : (∃ invitee inviteId eventId, request = .removeInvite invitee inviteId eventId) →
    ∀ i ∈ s.invites, i ∉ s'.invites → ∀ e ∈ s.events, e.eventId = i.eventId →
      e.creatorGUID ≠ i.invitee

def eventsNamed (s : CalendarMgr) (eventId : Nat) : List CalendarEvent :=
  s.events.filter fun e => e.eventId = eventId

def invitesNamed (s : CalendarMgr) (inviteId : Nat) : List CalendarInvite :=
  s.invites.filter fun i => i.inviteId = inviteId

/-- No event but that one is changed or removed. -/
def OtherEventsStay (s s' : CalendarMgr) (eventId : Nat) : Prop :=
  (∀ id, id ≠ eventId → s'.eventsNamed id = s.eventsNamed id) ∧
    (s.getEvent eventId = none → s'.events = s.events ∧ s'.invites = s.invites)

/-- No invite but that one is changed or removed, and none is without an event that is so. -/
def OtherInvitesStay (s s' : CalendarMgr) (eventId inviteId : Nat) (isSo : CalendarEvent → Prop) :
    Prop :=
  s'.events = s.events ∧ (∀ id, id ≠ inviteId → s'.invitesNamed id = s.invitesNamed id) ∧
    (s'.invites ≠ s.invites → ∃ e, s.getEvent eventId = some e ∧ isSo e)

/-- **What each request may change** -/
def Applied (s s' : CalendarMgr) : CalendarRequest → Prop
  | .addEvent _ _ | .copyEvent _ _ => s.events <+: s'.events ∧ s.invites.Sublist s'.invites
  | .invite _ _ _ _ _ | .signup _ _ _ => s'.events = s.events ∧ s.invites.Sublist s'.invites
  | .updateEvent eventId _ => OtherEventsStay s s' eventId ∧ s'.invites = s.invites
  | .removeEvent eventId => OtherEventsStay s s' eventId ∧
      ∀ id, id ≠ eventId → s'.getEventInvites id = s.getEventInvites id
  | .rsvp eventId inviteId status _ =>
    OtherInvitesStay s s' eventId inviteId
      (fun e => status = CALENDAR_STATUS_REMOVED ∨ e.isLocked = false) ∧
    s'.invites.map (fun i => { i with status := 0, statusTime := 0 }) =
      s.invites.map fun i => { i with status := 0, statusTime := 0 }
  | .status _ eventId inviteId _ => OtherInvitesStay s s' eventId inviteId (fun _ => True) ∧
      s'.invites.map (fun i => { i with status := 0 }) = s.invites.map fun i => { i with status := 0 }
  | .moderatorStatus _ eventId inviteId _ =>
    OtherInvitesStay s s' eventId inviteId (fun _ => True) ∧
    s'.invites.map (fun i => { i with rank := 0 }) = s.invites.map fun i => { i with rank := 0 }
  | .removeInvite invitee inviteId eventId =>
    OtherInvitesStay s s' eventId inviteId (fun e => e.creatorGUID ≠ invitee) ∧
    ∀ id, id ≠ eventId → s'.getEventInvites id = s.getEventInvites id

/-! ## What one function leaves -/

theorem addInvite_keeps (e : CalendarEvent) (invite : CalendarInvite) :
    (s.addInvite e invite).events = s.events ∧ s.invites.Sublist (s.addInvite e invite).invites := by
  rw [addInvite]
  split
  · exact ⟨rfl, sublist_insertBy _ _ _⟩
  · exact ⟨rfl, List.Sublist.refl _⟩

theorem addInvites_keep {ι : Type*} {e : CalendarEvent} (make : ι → Nat → CalendarInvite)
    (inputs : List ι) : ∀ s : CalendarMgr,
    let s' := inputs.foldl
      (fun s i => s.getFreeInviteId.2.addInvite e (make i s.getFreeInviteId.1)) s
    s'.events = s.events ∧ s.invites.Sublist s'.invites := by
  induction inputs with
  | nil => exact fun s => ⟨rfl, List.Sublist.refl _⟩
  | cons i rest ih =>
    intro s
    obtain ⟨sameEvents, keeps⟩ :=
      addInvite_keeps (s := s.getFreeInviteId.2) e (make i s.getFreeInviteId.1)
    obtain ⟨sameEvents', keeps'⟩ :=
      ih (s.getFreeInviteId.2.addInvite e (make i s.getFreeInviteId.1))
    exact ⟨sameEvents'.trans sameEvents, keeps.trans keeps'⟩

theorem filter_eraseP {α : Type*} {f isKind : α → Bool} (other : ∀ x, isKind x = true → f x = false)
    (xs : List α) : (xs.eraseP isKind).filter f = xs.filter f := by
  induction xs with
  | nil => rfl
  | cons x rest ih =>
    rw [eraseP_cons]
    by_cases isIt : isKind x = true
    · rw [isIt, filter_cons_of_neg (ne_true_of_eq_false (other x isIt))]
      rfl
    · rw [eq_false_of_ne_true isIt, cond_false, filter_cons, filter_cons, ih]

theorem filter_named {α : Type*} {key : α → Nat} {id other : Nat} (apart : id ≠ other) (x : α)
    (isIt : decide (key x = other) = true) : decide (key x = id) = false :=
  decide_eq_false fun same => apart (same.symm.trans (of_decide_eq_true isIt))

variable {eventId inviteId : Nat}

theorem otherInvitesStay_changeInvite {isSo : CalendarEvent → Prop}
    {change : CalendarInvite → CalendarInvite} {e : CalendarEvent}
    (kept : ∀ i, (change i).inviteId = i.inviteId) (found : s.getEvent eventId = some e) (so : isSo e) :
    OtherInvitesStay s (s.changeInvite inviteId change) eventId inviteId isSo := by
  refine ⟨rfl, fun id apart => filter_changeFirst (fun i isIt => ?_) _, fun _ => ⟨e, found, so⟩⟩
  refine ⟨filter_named apart i isIt, ?_⟩
  rw [kept]
  exact filter_named apart i isIt

theorem otherInvitesStay_refl {isSo : CalendarEvent → Prop} :
    OtherInvitesStay s s eventId inviteId isSo :=
  ⟨rfl, fun _ _ => rfl, fun changed => absurd rfl changed⟩

theorem otherEventsStay_refl : OtherEventsStay s s eventId :=
  ⟨fun _ _ => rfl, fun _ => ⟨rfl, rfl⟩⟩

theorem handleInvite_applied {β : Type*}
    {change : CalendarInvite → CalendarInvite} {rest : CalendarInvite → β}
    (kept : ∀ i, (change i).inviteId = i.inviteId) (same : ∀ i, rest (change i) = rest i) :
    OtherInvitesStay s (s.handleInvite eventId inviteId change).1 eventId inviteId (fun _ => True) ∧
      (s.handleInvite eventId inviteId change).1.invites.map rest = s.invites.map rest := by
  rw [handleInvite]
  split
  · rename_i e found
    split
    · exact ⟨otherInvitesStay_changeInvite kept found True.intro, map_changeFirst same _⟩
    · exact ⟨otherInvitesStay_refl, rfl⟩
  · exact ⟨otherInvitesStay_refl, rfl⟩

theorem removeInvite_applied {invitee : Nat} :
    Applied s (s.handleCalendarEventRemoveInvite invitee inviteId eventId).1
      (.removeInvite invitee inviteId eventId) := by
  rw [handleCalendarEventRemoveInvite]
  split
  · rename_i e found
    split
    · exact ⟨otherInvitesStay_refl, fun _ _ => rfl⟩
    rename_i notCreator
    rw [removeInvite, found]
    dsimp only
    split
    · exact ⟨otherInvitesStay_refl, fun _ _ => rfl⟩
    refine ⟨⟨rfl, fun id apart => filter_eraseP (fun i isIt => ?_) _,
      fun _ => ⟨e, found, notCreator⟩⟩, fun id apart => filter_eraseP (fun i isIt => ?_) _⟩
    · exact filter_named apart i (decide_eq_true (of_decide_eq_true isIt).2)
    · exact filter_named apart i (decide_eq_true (of_decide_eq_true isIt).1)
  · exact ⟨otherInvitesStay_refl, fun _ _ => rfl⟩

theorem removeEvent_applied :
    Applied s (s.removeEvent eventId).1 (.removeEvent eventId) := by
  rw [removeEvent]
  split
  · exact ⟨otherEventsStay_refl, fun _ _ => rfl⟩
  rename_i e found
  refine ⟨⟨fun id apart => filter_eraseP (fun i isIt => filter_named apart i isIt) _,
    fun absent => ?_⟩, fun id apart => ?_⟩
  · rw [found] at absent
    cases absent
  change (s.invites.filter fun i => i.eventId ≠ eventId).filter _ = s.invites.filter _
  rw [List.filter_filter]
  refine filter_congr fun i _ => ?_
  by_cases named : i.eventId = id
  · simp [named, apart]
  · simp [named]

/-- **A request changes only what it names**, whoever makes it. -/
theorem handle_applied (s : CalendarMgr) (p : Sender) (request : CalendarRequest) :
    Applied s (s.handle p request).1 request := by
  cases request with
  | addEvent fields invitees =>
    rw [handle, handleCalendarAddEvent]
    dsimp only
    split
    · obtain ⟨sameEvents, keeps⟩ := addInvite_keeps (s := s.getFreeEventId.2)
        (newEvent p s.getFreeEventId.1 fields) ⟨0, (newEvent p s.getFreeEventId.1 fields).eventId, 0,
          p.guid, defaultResponseTime, CALENDAR_STATUS_NOT_SIGNED_UP, CALENDAR_RANK_PLAYER, ""⟩
      refine ⟨?_, keeps⟩
      rw [addEvent, sameEvents]
      exact prefix_append _ _
    · obtain ⟨sameEvents, keeps⟩ := addInvites_keep (e := newEvent p s.getFreeEventId.1 fields)
        (fun (i : InviteeFields) inviteId => ⟨inviteId,
          (newEvent p s.getFreeEventId.1 fields).eventId, i.invitee, p.guid, defaultResponseTime,
          i.status, i.rank, ""⟩) invitees s.getFreeEventId.2
      refine ⟨?_, keeps⟩
      rw [addEvent, sameEvents]
      exact prefix_append _ _
  | updateEvent eventId fields =>
    rw [handle, handleCalendarUpdateEvent]
    split
    · rename_i e found
      refine ⟨⟨fun id apart => filter_changeFirst (fun e isIt => ?_) _, fun absent => ?_⟩, rfl⟩
      · exact ⟨filter_named apart e isIt, filter_named apart e isIt⟩
      · rw [found] at absent
        cases absent
    · exact ⟨otherEventsStay_refl, rfl⟩
  | removeEvent eventId => exact removeEvent_applied
  | copyEvent eventId time =>
    rw [handle, handleCalendarCopyEvent]
    split
    · rename_i e found
      let newEvent : CalendarEvent := { e with
        eventId := s.getFreeEventId.1
        eventTime := time }
      obtain ⟨sameEvents, keeps⟩ := addInvites_keep (e := newEvent)
        (fun (i : CalendarInvite) inviteId => { i with
          inviteId := inviteId
          eventId := newEvent.eventId }) (s.getEventInvites eventId)
        (s.getFreeEventId.2.addEvent newEvent)
      have grows : s.events <+: (s.getFreeEventId.2.addEvent newEvent).events :=
        prefix_append _ _
      rw [← sameEvents] at grows
      exact ⟨grows, keeps⟩
    · exact ⟨prefix_refl _, List.Sublist.refl _⟩
  | invite eventId inviteId invitee isPreInvite isGuildEvent =>
    rw [handle, handleCalendarEventInvite.eq_def]
    split
    · exact ⟨rfl, List.Sublist.refl _⟩
    split
    · exact ⟨rfl, List.Sublist.refl _⟩
    split
    · exact ⟨rfl, List.Sublist.refl _⟩
    split
    · split
      · split
        · exact ⟨rfl, List.Sublist.refl _⟩
        · exact addInvite_keeps _ _
      · exact ⟨rfl, List.Sublist.refl _⟩
    · split
      · exact ⟨rfl, List.Sublist.refl _⟩
      · exact ⟨rfl, List.Sublist.refl _⟩
  | signup eventId tentative now =>
    rw [handle, handleCalendarEventSignup]
    split
    · split
      · exact ⟨rfl, List.Sublist.refl _⟩
      · exact addInvite_keeps _ _
    · exact ⟨rfl, List.Sublist.refl _⟩
  | rsvp eventId inviteId status now =>
    rw [handle, handleCalendarEventRsvp]
    split
    · rename_i e found
      split
      · exact ⟨otherInvitesStay_refl, rfl⟩
      rename_i notLocked
      split
      · refine ⟨otherInvitesStay_changeInvite ?_ found ?_, map_changeFirst ?_ _⟩
        · exact fun _ => rfl
        · rw [not_and_or, not_not, Bool.not_eq_true] at notLocked
          exact notLocked
        · exact fun _ => rfl
      · exact ⟨otherInvitesStay_refl, rfl⟩
    · exact ⟨otherInvitesStay_refl, rfl⟩
  | removeInvite invitee inviteId eventId => exact removeInvite_applied
  | status invitee eventId inviteId status => exact handleInvite_applied (fun _ => rfl) fun _ => rfl
  | moderatorStatus invitee eventId inviteId rank =>
    exact handleInvite_applied (fun _ => rfl) fun _ => rfl

/-- The player 2, who is not invited, changes the event of the player 1. -/
theorem update_of_stranger : ¬ ∀ (s : CalendarMgr) (p : Sender) (request : CalendarRequest),
    Respectful p s (s.handle p request).1 request := by
  intro always
  let event : CalendarEvent := ⟨1, 1, 0, 0, 0, 0, 0, 0, "", ""⟩
  have moderates := (always ⟨[event], [], ⟨1, []⟩, ⟨0, []⟩, false⟩ ⟨2, 0, true⟩
    (.updateEvent 1 ⟨"", "", 1, 0, 0, 0, 0⟩)).events event mem_cons_self (by decide)
  rcases moderates with ⟨e, isEvent, -, isCreator⟩ | ⟨i, isInvite, -⟩
  · rw [List.mem_singleton.mp isEvent] at isCreator
    exact absurd isCreator (by decide)
  · cases isInvite

end CalendarMgr

end Sky548
