import Mathlib.Data.List.MinMax
import Mathlib.Order.Nat
import Sky548.Calendar.CalendarMgr
import Sky548.Machine

/-!
# Calendar ids are unique

The pools own the ids of the events and invites there are (`Sound`), and every request keeps it so, as
long as ids do not run out and a pre-invite does not give back an id that is not to be had
(`Careful`): it carries the id that the client sent, and destroys the invite at once. Otherwise an id
in use is handed out again (`live_id_freed`).
-/

namespace Sky548

open List

theorem perm_insertInvite (invite : CalendarInvite) (all : List CalendarInvite) :
    (insertInvite invite all).Perm (invite :: all) :=
  perm_insertBy _ invite all

namespace CalendarMgr

variable {s : CalendarMgr} {p : Sender}

def liveEvents (s : CalendarMgr) : List Nat := s.events.map CalendarEvent.eventId

def liveInvites (s : CalendarMgr) : List Nat := s.invites.map CalendarInvite.inviteId

/-- **Ids are unique**, and none was handed out that was in use. -/
structure Unique (s : CalendarMgr) : Prop where
  events : s.liveEvents.Nodup
  invites : s.liveInvites.Nodup
  unclashed : s.clashed = false

/-- The pools own what is live, besides what a handler has in its hands. -/
structure Sound (s : CalendarMgr) (heldEvents heldInvites : List Nat) : Prop where
  events : s.eventIds.Owns (heldEvents ++ s.liveEvents)
  invites : s.inviteIds.Owns (heldInvites ++ s.liveInvites)
  unclashed : s.clashed = false

theorem Sound.unique (sound : Sound s [] []) : Unique s :=
  ⟨sound.events.nodup_out, sound.invites.nodup_out, sound.unclashed⟩

theorem mem_gaps {ids : List Nat} {id : Nat} :
    id ∈ gaps ids ↔ id < ids.foldr max 0 ∧ 0 < id ∧ id ∉ ids := by
  rw [gaps, mem_filter, mem_range, decide_eq_true_eq]

theorem owns_gaps {ids : List Nat} (nodup : ids.Nodup) (small : ∀ id ∈ ids, id + 1 < 2 ^ 64) :
    IdPool.Owns ⟨ids.foldr max 0, gaps ids⟩ ids := by
  have greatest : ids.foldr max 0 ≤ 2 ^ 64 - 2 := max_le_of_forall_le ids (2 ^ 64 - 2) (by
    intro id member
    have := small id member
    omega)
  have bound : (⟨ids.foldr max 0, gaps ids⟩ : IdPool).bound = ids.foldr max 0 + 1 := by
    have noWrap : ids.foldr max 0 + 1 < 2 ^ 64 := by omega
    exact Nat.mod_eq_of_lt noWrap
  constructor
  · refine List.nodup_append.mpr ⟨nodup, List.nodup_range.filter _, fun id isUsed gap isGap same => ?_⟩
    exact (mem_gaps.mp isGap).2.2 (same ▸ isUsed)
  intro id member
  rw [bound]
  rcases List.mem_append.mp member with isUsed | isGap
  · exact Nat.lt_succ_of_le (le_max_of_le' 0 isUsed (Nat.le_refl id))
  · exact Nat.lt_succ_of_lt (mem_gaps.mp isGap).1

theorem perm_loadInvites (invites : List CalendarInvite) : ∀ all : List CalendarInvite,
    (invites.foldl (fun all invite => insertInvite invite all) all).Perm (all ++ invites) := by
  induction invites with
  | nil =>
    intro all
    rw [append_nil]
    exact List.Perm.refl _
  | cons invite rest ih =>
    intro all
    refine (ih _).trans (((perm_insertInvite invite all).append_right rest).trans ?_)
    exact List.perm_middle.symm

theorem sound_loadFromDB {events : List CalendarEvent} {invites : List CalendarInvite}
    (distinctEvents : (events.map CalendarEvent.eventId).Nodup)
    (distinctInvites : (invites.map CalendarInvite.inviteId).Nodup)
    (smallEvents : ∀ e ∈ events, e.eventId + 1 < 2 ^ 64)
    (smallInvites : ∀ i ∈ invites, i.inviteId + 1 < 2 ^ 64) :
    Sound (loadFromDB events invites) [] [] where
  events := owns_gaps distinctEvents (List.forall_mem_map.mpr smallEvents)
  invites := (owns_gaps distinctInvites (List.forall_mem_map.mpr smallInvites)).perm
    ((perm_loadInvites invites []).map CalendarInvite.inviteId).symm
  unclashed := rfl

variable {heldEvents heldInvites : List Nat} {count : Nat}

theorem Sound.getFreeEventId (sound : Sound s heldEvents heldInvites) (spare : s.eventIds.Spare 1) :
    Sound s.getFreeEventId.2 (s.getFreeEventId.1 :: heldEvents) heldInvites := by
  obtain ⟨isNew, owns, -⟩ := sound.events.acquire (spare : s.eventIds.Spare (0 + 1))
  refine ⟨owns, sound.invites, ?_⟩
  have unused : s.eventIds.acquire.1 ∉ s.events.map CalendarEvent.eventId :=
    fun member => isNew (mem_append_right _ member)
  change (s.clashed || decide (s.eventIds.acquire.1 ∈ s.events.map CalendarEvent.eventId)) = false
  rw [sound.unclashed, decide_eq_false unused]
  rfl

theorem Sound.getFreeInviteId (sound : Sound s heldEvents heldInvites)
    (spare : s.inviteIds.Spare (count + 1)) :
    Sound s.getFreeInviteId.2 heldEvents (s.getFreeInviteId.1 :: heldInvites) ∧
      s.getFreeInviteId.2.inviteIds.Spare count := by
  obtain ⟨isNew, owns, spare⟩ := sound.invites.acquire spare
  refine ⟨⟨sound.events, owns, ?_⟩, spare⟩
  have unused : s.inviteIds.acquire.1 ∉ s.invites.map CalendarInvite.inviteId :=
    fun member => isNew (mem_append_right _ member)
  change (s.clashed || decide (s.inviteIds.acquire.1 ∈ s.invites.map CalendarInvite.inviteId)) = false
  rw [sound.unclashed, decide_eq_false unused]
  rfl

variable {e : CalendarEvent}

theorem Sound.addEvent (sound : Sound s (e.eventId :: heldEvents) heldInvites) :
    Sound (s.addEvent e) heldEvents heldInvites := by
  refine ⟨sound.events.perm ?_, sound.invites, sound.unclashed⟩
  rw [liveEvents, liveEvents, CalendarMgr.addEvent, map_append, ← append_assoc]
  exact (perm_append_singleton _ _).symm

theorem Sound.addInvite {invite : CalendarInvite}
    (sound : Sound s heldEvents (invite.inviteId :: heldInvites)) :
    Sound (s.addInvite e invite) heldEvents heldInvites := by
  rw [CalendarMgr.addInvite]
  split
  · refine ⟨sound.events, sound.invites.perm ?_, sound.unclashed⟩
    refine List.perm_middle.symm.trans (Perm.append_left _ ?_)
    exact ((perm_insertInvite invite s.invites).map CalendarInvite.inviteId).symm
  · exact ⟨sound.events, sound.invites.lose, sound.unclashed⟩

theorem addInvite_inviteIds (e : CalendarEvent) (invite : CalendarInvite) :
    (s.addInvite e invite).inviteIds = s.inviteIds := by
  rw [CalendarMgr.addInvite]
  split
  · rfl
  · rfl

theorem Sound.addInvites {ι : Type*} (make : ι → Nat → CalendarInvite)
    (named : ∀ i id, (make i id).inviteId = id) (inputs : List ι)
    (sound : Sound s heldEvents heldInvites) (spare : s.inviteIds.Spare inputs.length) :
    Sound (inputs.foldl (fun s i => s.getFreeInviteId.2.addInvite e (make i s.getFreeInviteId.1)) s)
      heldEvents heldInvites := by
  induction inputs generalizing s with
  | nil => exact sound
  | cons i rest ih =>
    obtain ⟨taken, spare⟩ := sound.getFreeInviteId spare
    refine ih (Sound.addInvite ?_) ?_
    · rw [named]
      exact taken
    · rw [addInvite_inviteIds]
      exact spare

theorem perm_eraseP {α : Type*} (isKind : α → Bool) {x : α} {xs : List α} (member : x ∈ xs)
    (isIt : isKind x = true) : ∃ y ∈ xs, isKind y = true ∧ xs.Perm (y :: xs.eraseP isKind) := by
  obtain ⟨y, before, after, -, isKind, split, erased⟩ := exists_of_eraseP member isIt
  refine ⟨y, ?_, isKind, ?_⟩
  · rw [split]
    exact mem_append_right _ mem_cons_self
  · rw [erased, split]
    exact perm_middle

theorem Sound.removeEvent (sound : Sound s [] []) (eventId : Nat) :
    Sound (s.removeEvent eventId).1 [] [] := by
  rw [CalendarMgr.removeEvent]
  split
  · exact sound
  rename_i e found
  have first : s.events.find? (fun e => decide (e.eventId = eventId)) = some e := found
  obtain ⟨y, -, sameId, events⟩ := perm_eraseP _ (mem_of_find?_eq_some first) (find?_some first)
  have invites : s.invites.Perm (s.getEventInvites eventId ++
      s.invites.filter fun i => i.eventId ≠ eventId) := by
    refine (filter_append_perm (fun i => decide (i.eventId = eventId)) s.invites).symm.trans ?_
    rw [getEventInvites]
    refine Perm.append_left _ (Perm.of_eq (filter_congr fun i _ => ?_))
    exact (decide_not ..).symm
  refine ⟨?_, ?_, sound.unclashed⟩
  · have owns := sound.events.perm (events.map CalendarEvent.eventId)
    rw [map_cons, of_decide_eq_true sameId] at owns
    exact owns.release
  · have owns := sound.invites.perm (invites.map CalendarInvite.inviteId)
    rw [map_append] at owns
    exact owns.releaseAll _

theorem Sound.removeInvite (sound : Sound s [] []) (inviteId eventId : Nat) :
    Sound (s.removeInvite inviteId eventId) [] [] := by
  rw [CalendarMgr.removeInvite]
  split
  · exact sound
  split
  · exact sound
  rename_i i found
  obtain ⟨inEvent, sameEvent⟩ := List.mem_filter.mp (mem_of_find?_eq_some found)
  have sameId := find?_some found
  have isIt : decide (i.eventId = eventId ∧ i.inviteId = inviteId) = true :=
    decide_eq_true ⟨of_decide_eq_true sameEvent, of_decide_eq_true sameId⟩
  obtain ⟨y, -, isKind, invites⟩ :=
    perm_eraseP (fun i => decide (i.eventId = eventId ∧ i.inviteId = inviteId)) inEvent isIt
  refine ⟨sound.events, ?_, sound.unclashed⟩
  have owns := sound.invites.perm (invites.map CalendarInvite.inviteId)
  rw [map_cons, (of_decide_eq_true isKind).2] at owns
  exact owns.release

variable {eventId : Nat}

theorem Sound.changeEvent {change : CalendarEvent → CalendarEvent}
    (sound : Sound s [] []) (kept : ∀ e, (change e).eventId = e.eventId) :
    Sound (s.changeEvent eventId change) [] [] := by
  refine ⟨?_, sound.invites, sound.unclashed⟩
  rw [liveEvents, CalendarMgr.changeEvent, map_changeFirst kept]
  exact sound.events

theorem Sound.changeInvite {inviteId : Nat} {change : CalendarInvite → CalendarInvite}
    (sound : Sound s [] []) (kept : ∀ i, (change i).inviteId = i.inviteId) :
    Sound (s.changeInvite inviteId change) [] [] := by
  refine ⟨sound.events, ?_, sound.unclashed⟩
  rw [liveInvites, CalendarMgr.changeInvite, map_changeFirst kept]
  exact sound.invites

/-- Ids do not run out, and what a pre-invite gives back could have been handed out. -/
def Careful (p : Sender) (s : CalendarMgr) : CalendarRequest → Prop
  | .addEvent fields invitees => s.eventIds.Spare 1 ∧
      (fields.flags &&& CALENDAR_FLAG_WITHOUT_INVITES = 0 → s.inviteIds.Spare invitees.length)
  | .copyEvent eventId _ => s.getEvent eventId ≠ none →
      s.eventIds.Spare 1 ∧ s.inviteIds.Spare (s.getEventInvites eventId).length
  | .invite eventId inviteId invitee isPreInvite isGuildEvent =>
    if isPreInvite then
      ∀ i ∈ invitee, i.isAllied = true → i.ignoresSender = false →
        (isGuildEvent = true → i.guildId ≠ p.guildId) →
        inviteId ∉ s.liveInvites ∧ inviteId ∉ s.inviteIds.free ∧ inviteId < s.inviteIds.bound
    else s.getEvent eventId ≠ none → s.inviteIds.Spare 1
  | .signup eventId _ _ => s.getEvent eventId ≠ none → s.inviteIds.Spare 1
  | _ => True

theorem Sound.filled {ι : Type*} {lost : CalendarInvite}
    (sound : Sound s [e.eventId] []) (make : ι → Nat → CalendarInvite)
    (named : ∀ i id, (make i id).inviteId = id) (inputs : List ι)
    (spare : e.isGuildAnnouncement = false → s.inviteIds.Spare inputs.length) :
    Sound ((if e.isGuildAnnouncement then s.addInvite e lost
      else inputs.foldl (fun s i => s.getFreeInviteId.2.addInvite e (make i s.getFreeInviteId.1)) s
      ).addEvent e) [] [] := by
  split
  · rename_i isAnnouncement
    have notKept : s.addInvite e lost = s := by
      rw [CalendarMgr.addInvite, isAnnouncement]
      rfl
    rw [notKept]
    exact sound.addEvent
  · rename_i notAnnouncement
    exact (sound.addInvites make named inputs
      (spare (eq_false_of_ne_true notAnnouncement))).addEvent

theorem newEvent_fields (p : Sender) (eventId : Nat) (fields : EventFields) :
    (newEvent p eventId fields).eventId = eventId ∧ (newEvent p eventId fields).flags = fields.flags := by
  rw [newEvent]
  split
  · exact ⟨rfl, rfl⟩
  · exact ⟨rfl, rfl⟩

section

variable (sound : Sound s [] [])

include sound

theorem Sound.handleCalendarAddEvent {fields : EventFields} {invitees : List InviteeFields} (careful : Careful p s (.addEvent fields invitees)) :
    Sound (s.handleCalendarAddEvent p fields invitees) [] [] := by
  obtain ⟨spareEvent, spareInvites⟩ := careful
  have taken := sound.getFreeEventId spareEvent
  obtain ⟨sameId, sameFlags⟩ := newEvent_fields p s.getFreeEventId.1 fields
  rw [← sameId] at taken
  rw [← sameFlags] at spareInvites
  exact taken.filled
    (fun i inviteId => ⟨inviteId, (newEvent p s.getFreeEventId.1 fields).eventId, i.invitee, p.guid,
      defaultResponseTime, i.status, i.rank, ""⟩)
    (fun _ _ => rfl) invitees
    fun notAnnouncement => spareInvites (of_not_not (of_decide_eq_false notAnnouncement))

theorem Sound.handleCalendarCopyEvent {time : Nat} (careful : Careful p s (.copyEvent eventId time)) :
    Sound (s.handleCalendarCopyEvent eventId time).1 [] [] := by
  rw [CalendarMgr.handleCalendarCopyEvent]
  split
  · rename_i e found
    obtain ⟨spareEvent, spareInvites⟩ := careful (by
      rw [found]
      exact nofun)
    have taken := sound.getFreeEventId spareEvent
    let newEvent : CalendarEvent := { e with
      eventId := s.getFreeEventId.1
      eventTime := time }
    have added : Sound (s.getFreeEventId.2.addEvent newEvent) [] [] := Sound.addEvent taken
    exact added.addInvites (fun i inviteId => { i with
        inviteId := inviteId
        eventId := newEvent.eventId })
      (fun _ _ => rfl) _ spareInvites
  · exact sound

theorem Sound.addNewInvite {invite : CalendarInvite} (named : invite.inviteId = s.getFreeInviteId.1) (spare : s.inviteIds.Spare 1) :
    Sound (s.getFreeInviteId.2.addInvite e invite) [] [] := by
  have taken := (sound.getFreeInviteId (spare : s.inviteIds.Spare (0 + 1))).1
  rw [← named] at taken
  exact taken.addInvite

theorem Sound.handleCalendarEventInvite {inviteId : Nat} {invitee : Option Invitee}
    {isPreInvite isGuildEvent : Bool} (careful : Careful p s (.invite eventId inviteId invitee isPreInvite isGuildEvent)) :
    Sound (s.handleCalendarEventInvite p eventId inviteId invitee isPreInvite isGuildEvent).1
      [] [] := by
  rw [CalendarMgr.handleCalendarEventInvite.eq_def]
  split
  · exact sound
  rename_i i
  split
  · exact sound
  rename_i isAllied
  split
  · exact sound
  rename_i listens
  split
  · rename_i notPre
    rw [Bool.not_eq_true'] at notPre
    split
    · rename_i e found
      split
      · exact sound
      rw [Careful, notPre, if_neg Bool.false_ne_true] at careful
      refine sound.addNewInvite rfl (careful ?_)
      rw [found]
      exact nofun
    · exact sound
  · rename_i isPre
    rw [Bool.not_eq_true', Bool.not_eq_false] at isPre
    split
    · exact sound
    rename_i notGuild
    rw [Careful, if_pos isPre] at careful
    rw [Bool.not_eq_true', Bool.not_eq_false] at isAllied
    obtain ⟨notLive, notFree, isBelow⟩ := careful i rfl isAllied (eq_false_of_ne_true listens)
      (fun isGuild same => notGuild (by rw [isGuild, same, beq_self_eq_true]; rfl))
    refine ⟨sound.events, ?_, sound.unclashed⟩
    refine IdPool.Owns.release ⟨List.nodup_cons.mpr ⟨?_, sound.invites.nodup⟩, fun id member => ?_⟩
    · exact fun member => (List.mem_append.mp member).elim notLive notFree
    · rcases List.mem_cons.mp member with rfl | before
      · exact isBelow
      · exact sound.invites.below id before

theorem Sound.handleCalendarEventSignup {now : Nat} {tentative : Bool} (careful : Careful p s (.signup eventId tentative now)) :
    Sound (s.handleCalendarEventSignup p eventId tentative now).1 [] [] := by
  rw [CalendarMgr.handleCalendarEventSignup]
  split
  · rename_i e found
    split
    · exact sound
    · refine sound.addNewInvite rfl (careful ?_)
      rw [found]
      exact nofun
  · exact sound

theorem Sound.handle {request : CalendarRequest} (careful : Careful p s request) : Sound (s.handle p request).1 [] [] := by
  have changed : ∀ eventId inviteId (change : CalendarInvite → CalendarInvite),
      (∀ i, (change i).inviteId = i.inviteId) → Sound (s.handleInvite eventId inviteId change).1 [] [] := by
    intro eventId inviteId change kept
    rw [CalendarMgr.handleInvite]
    split
    · split
      · exact sound.changeInvite kept
      · exact sound
    · exact sound
  cases request with
  | addEvent fields invitees => exact sound.handleCalendarAddEvent careful
  | updateEvent eventId fields =>
    rw [CalendarMgr.handle, handleCalendarUpdateEvent]
    split
    · exact sound.changeEvent fun _ => rfl
    · exact sound
  | removeEvent eventId => exact sound.removeEvent eventId
  | copyEvent eventId time => exact sound.handleCalendarCopyEvent careful
  | invite eventId inviteId invitee isPreInvite isGuildEvent =>
    exact sound.handleCalendarEventInvite careful
  | signup eventId tentative now => exact sound.handleCalendarEventSignup careful
  | rsvp eventId inviteId status now =>
    rw [CalendarMgr.handle, handleCalendarEventRsvp]
    split
    · split
      · exact sound
      split
      · exact sound.changeInvite fun _ => rfl
      · exact sound
    · exact sound
  | removeInvite invitee inviteId eventId =>
    rw [CalendarMgr.handle, handleCalendarEventRemoveInvite]
    split
    · split
      · exact sound
      · exact sound.removeInvite inviteId eventId
    · exact sound
  | status invitee eventId inviteId status => exact changed eventId inviteId _ fun _ => rfl
  | moderatorStatus invitee eventId inviteId rank => exact changed eventId inviteId _ fun _ => rfl

end

def step (s : CalendarMgr) (input : Sender × CalendarRequest) : CalendarMgr :=
  (s.handle input.1 input.2).1

/-- **Calendar ids are unique** in every run of careful requests. -/
theorem unique_run {events : List CalendarEvent} {invites : List CalendarInvite}
    {inputs : List (Sender × CalendarRequest)}
    (distinctEvents : (events.map CalendarEvent.eventId).Nodup)
    (distinctInvites : (invites.map CalendarInvite.inviteId).Nodup)
    (smallEvents : ∀ e ∈ events, e.eventId + 1 < 2 ^ 64)
    (smallInvites : ∀ i ∈ invites, i.inviteId + 1 < 2 ^ 64)
    (careful : Machine.EachStep step (fun s input => Careful input.1 s input.2)
      (loadFromDB events invites) inputs) :
    Machine.Throughout step Unique (loadFromDB events invites) inputs := by
  have start := sound_loadFromDB distinctEvents distinctInvites smallEvents smallInvites
  have always : Machine.Throughout step (fun s => Sound s [] []) (loadFromDB events invites) inputs :=
    Machine.Throughout.of_eachStep start (fun _ _ sound met => sound.handle met) careful
  exact always.mono fun _ sound => sound.unique

/-- A raid of the player 1, with an invite of the player 2, which is taken back while another is
written. -/
theorem unique_run_of_rewritten : Machine.Throughout step Unique (loadFromDB [] [])
    [(⟨1, 0, true⟩, .addEvent ⟨"", "", 0, 0, 0, 0, 0⟩ [⟨1, 1, 2⟩, ⟨2, 0, 0⟩]),
      (⟨1, 0, true⟩, .removeInvite 2 2 1),
      (⟨1, 0, true⟩, .invite 1 0 (some ⟨3, 0, true, false⟩) true false),
      (⟨2, 0, true⟩, .signup 1 false 0)] :=
  unique_run nodup_nil nodup_nil (by simp) (by simp) ⟨⟨by decide, fun _ => by decide⟩, True.intro,
      fun i isIt _ _ _ => by decide,
      fun _ => by decide, True.intro⟩

/-- The invite 1 is given back while it is live. -/
theorem live_id_freed : ¬ ∀ (events : List CalendarEvent) (invites : List CalendarInvite)
    (inputs : List (Sender × CalendarRequest)), (events.map CalendarEvent.eventId).Nodup →
    (invites.map CalendarInvite.inviteId).Nodup →
    Machine.Throughout step Unique (loadFromDB events invites) inputs := by
  intro always
  have last := (always [] []
    [(⟨1, 0, true⟩, .addEvent ⟨"", "", 0, 0, 0, 0, 0⟩ [⟨1, 1, 2⟩, ⟨2, 0, 0⟩]),
      (⟨3, 0, true⟩, .invite 0 1 (some ⟨4, 0, true, false⟩) true false),
      (⟨3, 0, true⟩, .signup 1 false 0)] nodup_nil nodup_nil).last.invites
  exact absurd last (by decide)

end CalendarMgr

end Sky548
