import Sky548.IdPool
import Sky548.Multimap

/-!
# The calendar

The events and the invites, with the pools of their ids, and the requests of players. The invites
are listed by event, and those of one event as they were added; the events are a set of pointers,
listed as they were added. An event or an invite gives its id back when it is destroyed.

`clashed` tells that an id was handed out that a live event or invite has.
-/

namespace Sky548

open List

structure CalendarInvite where
  inviteId : Nat
  eventId : Nat
  invitee : Nat
  senderGUID : Nat
  statusTime : Nat
  status : Nat
  rank : Nat
  text : String
  deriving DecidableEq

structure CalendarEvent where
  eventId : Nat
  creatorGUID : Nat
  guildId : Nat
  type : Nat
  dungeonId : Int
  eventTime : Nat
  flags : Nat
  timezoneTime : Nat
  title : String
  description : String
  deriving DecidableEq

def CALENDAR_FLAG_INVITES_LOCKED : Nat := 0x010
def CALENDAR_FLAG_WITHOUT_INVITES : Nat := 0x040
def CALENDAR_FLAG_GUILD_EVENT : Nat := 0x400

def CALENDAR_RANK_PLAYER : Nat := 0
def CALENDAR_RANK_MODERATOR : Nat := 1
def CALENDAR_RANK_OWNER : Nat := 2

def CALENDAR_STATUS_INVITED : Nat := 0
def CALENDAR_STATUS_SIGNED_UP : Nat := 6
def CALENDAR_STATUS_NOT_SIGNED_UP : Nat := 7
def CALENDAR_STATUS_TENTATIVE : Nat := 8
def CALENDAR_STATUS_REMOVED : Nat := 9

def defaultResponseTime : Nat := 946684800

inductive CalendarError
  | eventInvalid
  | guildPlayerNotInGuild
  | playerNotFound
  | notAllied
  | ignoringYou
  | eventLocked
  | deleteCreatorFailed
  | noInvite
  | noGuildInvites
  deriving DecidableEq

namespace CalendarEvent

variable (e : CalendarEvent)

def isGuildEvent : Bool := e.flags &&& CALENDAR_FLAG_GUILD_EVENT ≠ 0
def isGuildAnnouncement : Bool := e.flags &&& CALENDAR_FLAG_WITHOUT_INVITES ≠ 0
def isLocked : Bool := e.flags &&& CALENDAR_FLAG_INVITES_LOCKED ≠ 0

end CalendarEvent

structure CalendarMgr where
  events : List CalendarEvent
  invites : List CalendarInvite
  eventIds : IdPool
  inviteIds : IdPool
  clashed : Bool

/-- `push_back` to the invites of its event -/
def insertInvite (invite : CalendarInvite) (all : List CalendarInvite) : List CalendarInvite :=
  insertBy CalendarInvite.eventId invite all

namespace CalendarMgr

variable (s : CalendarMgr)

/-- The ids up to the greatest that are not used, as `LoadFromDB` lists them -/
def gaps (ids : List Nat) : List Nat :=
  (List.range (ids.foldr max 0)).filter fun id => 0 < id ∧ id ∉ ids

def loadFromDB (events : List CalendarEvent) (invites : List CalendarInvite) : CalendarMgr where
  events := events
  invites := invites.foldl (fun all invite => insertInvite invite all) []
  eventIds := ⟨(events.map CalendarEvent.eventId).foldr max 0, gaps (events.map CalendarEvent.eventId)⟩
  inviteIds := ⟨(invites.map CalendarInvite.inviteId).foldr max 0,
    gaps (invites.map CalendarInvite.inviteId)⟩
  clashed := false

def getEvent (eventId : Nat) : Option CalendarEvent :=
  s.events.find? fun e => e.eventId = eventId

def getInvite (inviteId : Nat) : Option CalendarInvite :=
  s.invites.find? fun i => i.inviteId = inviteId

def getEventInvites (eventId : Nat) : List CalendarInvite :=
  s.invites.filter fun i => i.eventId = eventId

def getFreeEventId : Nat × CalendarMgr :=
  let (eventId, pool) := s.eventIds.acquire
  (eventId, { s with
    eventIds := pool
    clashed := s.clashed || eventId ∈ s.events.map CalendarEvent.eventId })

def getFreeInviteId : Nat × CalendarMgr :=
  let (inviteId, pool) := s.inviteIds.acquire
  (inviteId, { s with
    inviteIds := pool
    clashed := s.clashed || inviteId ∈ s.invites.map CalendarInvite.inviteId })

def freeInviteId (inviteId : Nat) : CalendarMgr :=
  { s with inviteIds := s.inviteIds.release inviteId }

def addEvent (e : CalendarEvent) : CalendarMgr := { s with events := s.events ++ [e] }

/-- `AddInvite`, which keeps none for a guild announcement -/
def addInvite (e : CalendarEvent) (invite : CalendarInvite) : CalendarMgr :=
  if !e.isGuildAnnouncement then { s with invites := insertInvite invite s.invites } else s

def removeEvent (eventId : Nat) : CalendarMgr × Option CalendarError :=
  match s.getEvent eventId with
  | none => (s, some .eventInvalid)
  | some _ =>
    ({ s with
      inviteIds := ((s.getEventInvites eventId).map CalendarInvite.inviteId).foldl
        IdPool.release s.inviteIds
      invites := s.invites.filter fun i => i.eventId ≠ eventId
      eventIds := s.eventIds.release eventId
      events := s.events.eraseP fun e => e.eventId = eventId }, none)

def removeInvite (inviteId eventId : Nat) : CalendarMgr :=
  match s.getEvent eventId with
  | none => s
  | some _ =>
    match (s.getEventInvites eventId).find? fun i => i.inviteId = inviteId with
    | none => s
    | some _ =>
      { s with
        inviteIds := s.inviteIds.release inviteId
        invites := s.invites.eraseP fun i => i.eventId = eventId ∧ i.inviteId = inviteId }

def changeFirst {α : Type*} (isKind : α → Bool) (change : α → α) : List α → List α
  | [] => []
  | x :: rest => if isKind x then change x :: rest else x :: changeFirst isKind change rest

theorem map_changeFirst {α β : Type*} {f : α → β} {isKind : α → Bool} {change : α → α}
    (kept : ∀ x, f (change x) = f x) (xs : List α) :
    (changeFirst isKind change xs).map f = xs.map f := by
  induction xs with
  | nil => rfl
  | cons x rest ih =>
    rw [changeFirst]
    split
    · rw [map_cons, map_cons, kept]
    · rw [map_cons, map_cons, ih]

theorem filter_changeFirst {α : Type*} {f isKind : α → Bool} {change : α → α}
    (other : ∀ x, isKind x = true → f x = false ∧ f (change x) = false) (xs : List α) :
    (changeFirst isKind change xs).filter f = xs.filter f := by
  induction xs with
  | nil => rfl
  | cons x rest ih =>
    rw [changeFirst]
    split
    · rename_i isIt
      obtain ⟨before, after⟩ := other x isIt
      rw [filter_cons_of_neg (ne_true_of_eq_false after),
        filter_cons_of_neg (ne_true_of_eq_false before)]
    · rw [filter_cons, filter_cons, ih]

def changeEvent (eventId : Nat) (change : CalendarEvent → CalendarEvent) : CalendarMgr :=
  { s with events := changeFirst (fun e => e.eventId = eventId) change s.events }

def changeInvite (inviteId : Nat) (change : CalendarInvite → CalendarInvite) : CalendarMgr :=
  { s with invites := changeFirst (fun i => i.inviteId = inviteId) change s.invites }

end CalendarMgr

/-- The player whose session gets the request -/
structure Sender where
  guid : Nat
  guildId : Nat
  /-- `FindPlayer` finds it. -/
  isFound : Bool

structure EventFields where
  title : String
  description : String
  type : Nat
  dungeonId : Int
  eventTime : Nat
  timezoneTime : Nat
  flags : Nat

structure InviteeFields where
  invitee : Nat
  status : Nat
  rank : Nat

/-- The player that is found for a name, whether the sender may invite it, and whether it ignores
the sender -/
structure Invitee where
  guid : Nat
  guildId : Nat
  isAllied : Bool
  ignoresSender : Bool

inductive CalendarRequest
  | addEvent (fields : EventFields) (invitees : List InviteeFields)
  | updateEvent (eventId : Nat) (fields : EventFields)
  | removeEvent (eventId : Nat)
  | copyEvent (eventId time : Nat)
  | invite (eventId inviteId : Nat) (invitee : Option Invitee) (isPreInvite isGuildEvent : Bool)
  | signup (eventId : Nat) (tentative : Bool) (now : Nat)
  | rsvp (eventId inviteId status now : Nat)
  | removeInvite (invitee inviteId eventId : Nat)
  | status (invitee eventId inviteId status : Nat)
  | moderatorStatus (invitee eventId inviteId rank : Nat)

namespace CalendarMgr

variable (s : CalendarMgr) (p : Sender)

/-- The event that `HandleCalendarAddEvent` makes, with the guild of its creator if it is for one -/
def newEvent (eventId : Nat) (fields : EventFields) : CalendarEvent :=
  let e : CalendarEvent :=
    { eventId := eventId
      creatorGUID := p.guid
      guildId := 0
      type := fields.type
      dungeonId := fields.dungeonId
      eventTime := fields.eventTime
      flags := fields.flags
      timezoneTime := fields.timezoneTime
      title := fields.title
      description := fields.description }
  if (e.isGuildEvent || e.isGuildAnnouncement) && p.isFound then { e with guildId := p.guildId }
  else e

def handleCalendarAddEvent (fields : EventFields) (invitees : List InviteeFields) : CalendarMgr :=
  let (eventId, s) := s.getFreeEventId
  let e := newEvent p eventId fields
  let s :=
    if e.isGuildAnnouncement then
      s.addInvite e ⟨0, e.eventId, 0, p.guid, defaultResponseTime, CALENDAR_STATUS_NOT_SIGNED_UP,
        CALENDAR_RANK_PLAYER, ""⟩
    else
      invitees.foldl (fun s i =>
        let (inviteId, s) := s.getFreeInviteId
        s.addInvite e ⟨inviteId, e.eventId, i.invitee, p.guid, defaultResponseTime, i.status, i.rank,
          ""⟩) s
  s.addEvent e

def handleCalendarUpdateEvent (eventId : Nat) (fields : EventFields) :
    CalendarMgr × Option CalendarError :=
  match s.getEvent eventId with
  | some _ =>
    (s.changeEvent eventId fun e => { e with
      type := fields.type
      flags := fields.flags
      eventTime := fields.eventTime
      timezoneTime := fields.timezoneTime
      dungeonId := fields.dungeonId
      title := fields.title
      description := fields.description }, none)
  | none => (s, some .eventInvalid)

def handleCalendarCopyEvent (eventId time : Nat) : CalendarMgr × Option CalendarError :=
  match s.getEvent eventId with
  | some oldEvent =>
    let (newId, s) := s.getFreeEventId
    let newEvent := { oldEvent with
      eventId := newId
      eventTime := time }
    let s := s.addEvent newEvent
    ((s.getEventInvites eventId).foldl (fun s i =>
      let (inviteId, s) := s.getFreeInviteId
      s.addInvite newEvent { i with
        inviteId := inviteId
        eventId := newEvent.eventId }) s, none)
  | none => (s, some .eventInvalid)

def handleCalendarEventInvite (eventId inviteId : Nat) (invitee : Option Invitee)
    (isPreInvite isGuildEvent : Bool) : CalendarMgr × Option CalendarError :=
  match invitee with
  | none => (s, some .playerNotFound)
  | some invitee =>
    if !invitee.isAllied then (s, some .notAllied)
    else if invitee.ignoresSender then (s, some .ignoringYou)
    else if !isPreInvite then
      match s.getEvent eventId with
      | some e =>
        if e.isGuildEvent && e.guildId == invitee.guildId then (s, some .noGuildInvites)
        else
          let (newId, s) := s.getFreeInviteId
          (s.addInvite e ⟨newId, eventId, invitee.guid, p.guid, defaultResponseTime,
            CALENDAR_STATUS_INVITED, CALENDAR_RANK_PLAYER, ""⟩, none)
      | none => (s, some .eventInvalid)
    else if isGuildEvent && invitee.guildId == p.guildId then (s, some .noGuildInvites)
    else (s.freeInviteId inviteId, none)

def handleCalendarEventSignup (eventId : Nat) (tentative : Bool) (now : Nat) :
    CalendarMgr × Option CalendarError :=
  match s.getEvent eventId with
  | some e =>
    if e.isGuildEvent && e.guildId != p.guildId then (s, some .guildPlayerNotInGuild)
    else
      let status := if tentative then CALENDAR_STATUS_TENTATIVE else CALENDAR_STATUS_SIGNED_UP
      let (inviteId, s) := s.getFreeInviteId
      (s.addInvite e ⟨inviteId, eventId, p.guid, p.guid, now, status, CALENDAR_RANK_PLAYER, ""⟩, none)
  | none => (s, some .eventInvalid)

def handleCalendarEventRsvp (eventId inviteId status now : Nat) :
    CalendarMgr × Option CalendarError :=
  match s.getEvent eventId with
  | some e =>
    if status ≠ CALENDAR_STATUS_REMOVED ∧ e.isLocked then (s, some .eventLocked)
    else
      match s.getInvite inviteId with
      | some _ =>
        (s.changeInvite inviteId fun i => { i with
          status := status
          statusTime := now }, none)
      | none => (s, some .noInvite)
  | none => (s, some .eventInvalid)

def handleCalendarEventRemoveInvite (invitee inviteId eventId : Nat) :
    CalendarMgr × Option CalendarError :=
  match s.getEvent eventId with
  | some e =>
    if e.creatorGUID = invitee then (s, some .deleteCreatorFailed)
    else (s.removeInvite inviteId eventId, none)
  | none => (s, some .noInvite)

/-- What `HandleCalendarEventStatus` and `HandleCalendarEventModeratorStatus` have in common: the
event and the invite are looked up, each for itself. -/
def handleInvite (eventId inviteId : Nat) (change : CalendarInvite → CalendarInvite) :
    CalendarMgr × Option CalendarError :=
  match s.getEvent eventId with
  | some _ =>
    match s.getInvite inviteId with
    | some _ => (s.changeInvite inviteId change, none)
    | none => (s, some .noInvite)
  | none => (s, some .eventInvalid)

def handleCalendarEventStatus (eventId inviteId status : Nat) : CalendarMgr × Option CalendarError :=
  s.handleInvite eventId inviteId fun i => { i with status := status }

def handleCalendarEventModeratorStatus (eventId inviteId rank : Nat) :
    CalendarMgr × Option CalendarError :=
  s.handleInvite eventId inviteId fun i => { i with rank := rank }

/-- **A request** of a player, and the error that is sent back -/
def handle : CalendarRequest → CalendarMgr × Option CalendarError
  | .addEvent fields invitees => (s.handleCalendarAddEvent p fields invitees, none)
  | .updateEvent eventId fields => s.handleCalendarUpdateEvent eventId fields
  | .removeEvent eventId => s.removeEvent eventId
  | .copyEvent eventId time => s.handleCalendarCopyEvent eventId time
  | .invite eventId inviteId invitee isPreInvite isGuildEvent =>
    s.handleCalendarEventInvite p eventId inviteId invitee isPreInvite isGuildEvent
  | .signup eventId tentative now => s.handleCalendarEventSignup p eventId tentative now
  | .rsvp eventId inviteId status now => s.handleCalendarEventRsvp eventId inviteId status now
  | .removeInvite invitee inviteId eventId =>
    s.handleCalendarEventRemoveInvite invitee inviteId eventId
  | .status _ eventId inviteId status => s.handleCalendarEventStatus eventId inviteId status
  | .moderatorStatus _ eventId inviteId rank =>
    s.handleCalendarEventModeratorStatus eventId inviteId rank

end CalendarMgr

end Sky548
