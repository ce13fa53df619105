import Sky548.Calendar.FreeIds

/-!
# The calendar of one player

What a player sees of the calendar, and what is removed with him. `GetPlayerEvents` looks up the event
of each invite, and compares guild ids without asking whether there is a guild: a player in none sees
every event that is for none (`seesHis_iff`). The loops that remove events go on from the event that
they just erased, so that they are safe only where they find none (`removeAll_iff`).
-/

namespace Sky548

open List

namespace CalendarMgr

variable (s : CalendarMgr)

def getPlayerInvites (guid : Nat) : List CalendarInvite :=
  s.invites.filter fun i => i.invitee = guid

/-- `GetPlayerEvents`, which inserts a null pointer for an invite without an event -/
def getPlayerEvents (p : Sender) : List (Option CalendarEvent) :=
  let events := s.invites.foldl (fun events i =>
    if i.invitee = p.guid then events.insert (s.getEvent i.eventId) else events) []
  if p.isFound then
    s.events.foldl (fun events e =>
      if e.guildId = p.guildId then events.insert (some e) else events) events
  else events

/-- The loop over `_events` in `RemoveAllPlayerEventsAndInvites` and
`RemovePlayerGuildEventsAndSignups`, with `passed` before the iterator; no result when an erased one
is advanced. -/
def removeEvents (isOne : CalendarEvent → Bool) (passed : List CalendarEvent) :
    List CalendarEvent → CalendarMgr → Option CalendarMgr
  | [], s => some s
  | e :: rest, s =>
    if isOne e then
      -- `RemoveEvent` erases the first event of that id.
      if passed.any fun x => x.eventId = e.eventId then
        removeEvents isOne ((passed.eraseP fun x => x.eventId = e.eventId) ++ [e]) rest
          (s.removeEvent e.eventId).1
      else none
    else removeEvents isOne (passed ++ [e]) rest s

def removeAllPlayerEventsAndInvites (guid : Nat) : Option CalendarMgr :=
  (removeEvents (fun e => e.creatorGUID = guid) [] s.events s).map fun s =>
    (s.getPlayerInvites guid).foldl (fun s i => s.removeInvite i.inviteId i.eventId) s

def removeSignup (guildId : Nat) (s : CalendarMgr) (i : CalendarInvite) : CalendarMgr :=
  match s.getEvent i.eventId with
  | some e => if e.isGuildEvent && e.guildId = guildId then s.removeInvite i.inviteId i.eventId else s
  | none => s

def removePlayerGuildEventsAndSignups (guid guildId : Nat) : Option CalendarMgr :=
  (removeEvents (fun e => e.creatorGUID = guid && (e.isGuildEvent || e.isGuildAnnouncement)) []
    s.events s).map fun s => (s.getPlayerInvites guid).foldl (removeSignup guildId) s

def Invited (guid : Nat) (e : CalendarEvent) : Prop :=
  ∃ i ∈ s.getPlayerInvites guid, i.eventId = e.eventId

def GuildMate (p : Sender) (e : CalendarEvent) : Prop := p.guildId ≠ 0 ∧ e.guildId = p.guildId

/-- The player is invited to the event, or a guild mate of it. -/
def concerns (p : Sender) (e : CalendarEvent) : Bool :=
  (s.getPlayerInvites p.guid).any (fun i => i.eventId = e.eventId) ||
    (p.guildId ≠ 0 && e.guildId = p.guildId)

/-- **A player sees his calendar** and nothing else. -/
structure SeesHis (p : Sender) : Prop where
  listed : ∀ e, some e ∈ s.getPlayerEvents p ↔ e ∈ s.events ∧ (s.Invited p.guid e ∨
    GuildMate p e ∧ (e.isGuildEvent || e.isGuildAnnouncement) = true)
  noNull : none ∉ s.getPlayerEvents p
  others : ∀ s' : CalendarMgr, s'.getPlayerInvites p.guid = s.getPlayerInvites p.guid →
    s'.events.filter (s.concerns p) = s.events.filter (s.concerns p) →
    ∀ found, found ∈ s'.getPlayerEvents p ↔ found ∈ s.getPlayerEvents p

/-- A player who is found is in a guild, his invites have events, and of the other events of his guild
those that are for it are what he sees of it. -/
structure Clear (p : Sender) : Prop where
  guilded : p.isFound = true → p.guildId ≠ 0
  live : ∀ i ∈ s.getPlayerInvites p.guid, s.getEvent i.eventId ≠ none
  found : ∀ e ∈ s.events, s.Invited p.guid e →
    s.getEvent e.eventId = some e ∨ p.isFound = true ∧ e.guildId = p.guildId
  guild : ∀ e ∈ s.events, GuildMate p e → ¬ s.Invited p.guid e →
    (p.isFound = true ↔ (e.isGuildEvent || e.isGuildAnnouncement) = true)

variable {s} {p : Sender}

theorem mem_foldl_insert {α β : Type*} [BEq β] [LawfulBEq β] {f : α → Prop} [DecidablePred f] {g : α → β}
    {y : β} (xs : List α) : ∀ ys : List β,
    (y ∈ xs.foldl (fun ys x => if f x then ys.insert (g x) else ys) ys ↔
      y ∈ ys ∨ ∃ x ∈ xs, f x ∧ g x = y) := by
  induction xs with
  | nil => simp
  | cons x rest ih =>
    intro ys
    rw [foldl_cons, ih]
    by_cases isOne : f x
    · simp only [isOne, if_true, mem_insert_iff, mem_cons, exists_eq_or_imp, true_and,
        eq_comm (a := y), or_assoc]
      exact or_left_comm
    · simp [isOne]

theorem mem_getPlayerEvents {found : Option CalendarEvent} : found ∈ s.getPlayerEvents p ↔
    (∃ i ∈ s.getPlayerInvites p.guid, s.getEvent i.eventId = found) ∨
      p.isFound = true ∧ ∃ e ∈ s.events, e.guildId = p.guildId ∧ some e = found := by
  have invited : found ∈ s.invites.foldl (fun events i =>
      if i.invitee = p.guid then events.insert (s.getEvent i.eventId) else events) [] ↔
      ∃ i ∈ s.getPlayerInvites p.guid, s.getEvent i.eventId = found := by
    rw [mem_foldl_insert (f := fun i : CalendarInvite => i.invitee = p.guid)]
    simp [getPlayerInvites, and_assoc]
  rw [getPlayerEvents]
  split
  · rename_i isFound
    rw [mem_foldl_insert (f := fun e : CalendarEvent => e.guildId = p.guildId), invited]
    simp [isFound]
  · rename_i notFound
    rw [invited]
    simp [notFound]

variable {e : CalendarEvent}

theorem getEvent_some {eventId : Nat} (found : s.getEvent eventId = some e) :
    e ∈ s.events ∧ e.eventId = eventId :=
  ⟨mem_of_find?_eq_some found, by simpa using find?_some found⟩

theorem mem_events_of_listed (listed : some e ∈ s.getPlayerEvents p) : e ∈ s.events := by
  rcases mem_getPlayerEvents.mp listed with ⟨i, -, found⟩ | ⟨-, e', member, -, same⟩
  · exact (getEvent_some found).1
  · cases same
    exact member

theorem concerns_iff : s.concerns p e = true ↔ s.Invited p.guid e ∨ GuildMate p e := by
  simp [concerns, Invited, GuildMate]

variable {s' : CalendarMgr}

theorem getEvent_filter {i : CalendarInvite} (mine : i ∈ s.getPlayerInvites p.guid):
    (s'.events.filter (s.concerns p)).find? (fun e => e.eventId = i.eventId) =
      s'.getEvent i.eventId := by
  rw [find?_filter, getEvent]
  congr 1
  funext e
  by_cases named : e.eventId = i.eventId
  · have concerned : s.concerns p e = true := concerns_iff.mpr (Or.inl ⟨i, mine, named.symm⟩)
    simp [named, concerned]
  · simp [named]

theorem Clear.others (clear : s.Clear p)
    (sameInvites : s'.getPlayerInvites p.guid = s.getPlayerInvites p.guid)
    (sameEvents : s'.events.filter (s.concerns p) = s.events.filter (s.concerns p))
    (found : Option CalendarEvent) :
    found ∈ s'.getPlayerEvents p ↔ found ∈ s.getPlayerEvents p := by
  rw [mem_getPlayerEvents, mem_getPlayerEvents, sameInvites]
  have sameFound : ∀ i ∈ s.getPlayerInvites p.guid,
      s'.getEvent i.eventId = s.getEvent i.eventId := by
    intro i mine
    rw [← getEvent_filter mine, ← getEvent_filter mine, sameEvents]
  have sameGuild : p.isFound = true → ∀ e, e.guildId = p.guildId →
      (e ∈ s'.events ↔ e ∈ s.events) := by
    intro isFound e ofGuild
    have concerned := concerns_iff.mpr
      (Or.inr ⟨clear.guilded isFound, ofGuild⟩ : s.Invited p.guid e ∨ GuildMate p e)
    have same : e ∈ s'.events.filter (s.concerns p) ↔ e ∈ s.events.filter (s.concerns p) := by
      rw [sameEvents]
    simpa [mem_filter, concerned] using same
  refine or_congr ?_ (and_congr_right fun isFound => ?_)
  · exact exists_congr fun i => and_congr_right fun mine => by rw [sameFound i mine]
  · refine exists_congr fun e => ⟨fun h => ?_, fun h => ?_⟩
    · exact ⟨(sameGuild isFound e h.2.1).mp h.1, h.2⟩
    · exact ⟨(sameGuild isFound e h.2.1).mpr h.1, h.2⟩

theorem Clear.seesHis (clear : s.Clear p) : s.SeesHis p where
  listed := by
    intro e
    constructor
    · intro listed
      refine ⟨mem_events_of_listed listed, ?_⟩
      rcases mem_getPlayerEvents.mp listed with ⟨i, mine, found⟩ | ⟨isFound, e', member, ofGuild, same⟩
      · exact Or.inl ⟨i, mine, (getEvent_some found).2.symm⟩
      cases same
      by_cases invited : s.Invited p.guid e
      · exact Or.inl invited
      · have mate : GuildMate p e := ⟨clear.guilded isFound, ofGuild⟩
        exact Or.inr ⟨mate, (clear.guild e member mate invited).mp isFound⟩
    · rintro ⟨member, wanted⟩
      rw [mem_getPlayerEvents]
      by_cases invited : s.Invited p.guid e
      · rcases clear.found e member invited with found | ⟨isFound, ofGuild⟩
        · obtain ⟨i, mine, named⟩ := invited
          exact Or.inl ⟨i, mine, named ▸ found⟩
        · exact Or.inr ⟨isFound, e, member, ofGuild, rfl⟩
      · obtain ⟨mate, isFor⟩ := wanted.resolve_left invited
        exact Or.inr ⟨(clear.guild e member mate invited).mpr isFor, e, member, mate.2, rfl⟩
  noNull := by
    intro listed
    rcases mem_getPlayerEvents.mp listed with ⟨i, mine, found⟩ | ⟨-, e, -, -, same⟩
    · exact clear.live i mine found
    · cases same
  others := fun _ sameInvites sameEvents => clear.others sameInvites sameEvents

theorem SeesHis.guilded (sees : s.SeesHis p) (isFound : p.isFound = true) : p.guildId ≠ 0 := by
  intro guildless
  let ids := s.events.map CalendarEvent.eventId ++ s.invites.map CalendarInvite.eventId
  let stranger : CalendarEvent := ⟨ids.foldr max 0 + 1, 0, 0, 0, 0, 0, 0, 0, "", ""⟩
  have isNew : ∀ id ∈ ids, id ≠ stranger.eventId := fun id member =>
    (Nat.lt_succ_of_le (le_max_of_le' 0 member (Nat.le_refl id))).ne
  have unconcerned : s.concerns p stranger = false := by
    refine eq_false_of_ne_true fun concerned => ?_
    rcases concerns_iff.mp concerned with ⟨i, mine, named⟩ | ⟨guilded, -⟩
    · refine isNew i.eventId (mem_append_right _ (List.mem_map_of_mem ?_)) named
      exact (List.mem_filter.mp mine).1
    · exact guilded guildless
  have listed := sees.others { s with events := s.events ++ [stranger] } rfl
    (by simp [filter_append, unconcerned]) (some stranger)
  have member : stranger ∈ s.events := mem_events_of_listed (listed.mp (mem_getPlayerEvents.mpr
    (Or.inr ⟨isFound, stranger, mem_append_right _ mem_cons_self, guildless.symm, rfl⟩)))
  exact isNew _ (mem_append_left _ (List.mem_map_of_mem member)) rfl

theorem SeesHis.clear (sees : s.SeesHis p) : s.Clear p where
  guilded := sees.guilded
  live := fun i mine dead => sees.noNull (mem_getPlayerEvents.mpr (Or.inl ⟨i, mine, dead⟩))
  found := by
    intro e member invited
    have listed := (sees.listed e).mpr ⟨member, Or.inl invited⟩
    rcases mem_getPlayerEvents.mp listed with ⟨i, -, found⟩ | ⟨isFound, e', -, ofGuild, same⟩
    · rw [(getEvent_some found).2]
      exact Or.inl found
    · cases same
      exact Or.inr ⟨isFound, ofGuild⟩
  guild := by
    intro e member mate uninvited
    constructor
    · intro isFound
      have listed := mem_getPlayerEvents.mpr (Or.inr ⟨isFound, e, member, mate.2, rfl⟩)
      exact (((sees.listed e).mp listed).2.resolve_left uninvited).2
    intro isFor
    have listed := (sees.listed e).mpr ⟨member, Or.inr ⟨mate, isFor⟩⟩
    rcases mem_getPlayerEvents.mp listed with ⟨i, mine, found⟩ | ⟨isFound, -⟩
    · exact absurd ⟨i, mine, (getEvent_some found).2.symm⟩ uninvited
    · exact isFound

/-- **When a player sees his calendar** -/
theorem seesHis_iff (s : CalendarMgr) (p : Sender) : s.SeesHis p ↔ s.Clear p :=
  ⟨SeesHis.clear, Clear.seesHis⟩

/-- The player 2, who is in no guild, sees the event that the player 1 wrote for himself. -/
theorem stranger_seen : ¬ ∀ (events : List CalendarEvent) (invites : List CalendarInvite)
    (inputs : List (Sender × CalendarRequest)) (p : Sender),
    (events.map CalendarEvent.eventId).Nodup → (invites.map CalendarInvite.inviteId).Nodup →
    (Machine.run step (loadFromDB events invites) inputs).SeesHis p := by
  intro always
  have sees := always [] [] [(⟨1, 0, true⟩, .addEvent ⟨"", "", 0, 0, 0, 0, 0⟩ [])] ⟨2, 0, true⟩
    nodup_nil nodup_nil
  exact sees.guilded rfl rfl

/-- **What is removed**: those events with their invites, and those invites; the rest is left, and no
iterator of an erased event is advanced. -/
def Emptied (s : CalendarMgr) (result : Option CalendarMgr) (isOne : CalendarEvent → Bool)
    (isMine : CalendarInvite → Bool) : Prop :=
  ∃ s', result = some s' ∧ s'.events = s.events.filter (fun e => !isOne e) ∧
    s'.invites = s.invites.filter fun i =>
      !isMine i && !s.events.any fun e => isOne e && e.eventId = i.eventId

/-- There is no such event, each of the invites has an event, and none of them comes after an invite
of somebody else with the same ids. -/
structure Removable (s : CalendarMgr) (isOne : CalendarEvent → Bool)
    (isMine : CalendarInvite → Bool) : Prop where
  noEvent : ∀ e ∈ s.events, isOne e = false
  live : ∀ i ∈ s.invites, isMine i = true → s.getEvent i.eventId ≠ none
  first : s.invites.Pairwise fun j i => isMine i = true → isMine j = false →
    (j.eventId, j.inviteId) ≠ (i.eventId, i.inviteId)

def isSignup (s : CalendarMgr) (guid guildId : Nat) (i : CalendarInvite) : Bool :=
  i.invitee = guid && (s.getEvent i.eventId).any fun e => e.isGuildEvent && e.guildId = guildId

section Erasing

variable {α κ : Type*} [DecidableEq κ] {key : α → κ} {isMine : α → Bool}

def eraseKeys (key : α → κ) (keys : List κ) (xs : List α) : List α :=
  keys.foldl (fun xs k => xs.eraseP fun x => key x = k) xs

theorem eraseKeys_cons_of_notMem {x : α} (keys : List κ) : ∀ xs : List α, key x ∉ keys →
    eraseKeys key keys (x :: xs) = x :: eraseKeys key keys xs := by
  induction keys with
  | nil => exact fun _ _ => rfl
  | cons k rest ih =>
    intro xs other
    obtain ⟨apart, other⟩ := not_or.mp (mt List.mem_cons.mpr other)
    have stays : (x :: xs).eraseP (fun x => key x = k) = x :: xs.eraseP fun x => key x = k :=
      eraseP_cons_of_neg (by simpa using apart)
    rw [eraseKeys, foldl_cons, stays]
    exact ih _ other

theorem eraseKeys_cons_of_mem {x : α} (keys : List κ) : ∀ xs : List α, key x ∈ keys →
    eraseKeys key keys (x :: xs) = eraseKeys key (keys.erase (key x)) xs := by
  induction keys with
  | nil => exact fun _ member => absurd member not_mem_nil
  | cons k rest ih =>
    intro xs member
    by_cases same : key x = k
    · have goes : (x :: xs).eraseP (fun x => key x = k) = xs :=
        eraseP_cons_of_pos (by simpa using same)
      rw [eraseKeys, foldl_cons, goes, same, erase_cons_head]
      rfl
    · have stays : (x :: xs).eraseP (fun x => key x = k) = x :: xs.eraseP fun x => key x = k :=
        eraseP_cons_of_neg (by simpa using same)
      have later : (k :: rest).erase (key x) = k :: rest.erase (key x) :=
        erase_cons_tail (by simpa using fun e => same e.symm)
      rw [eraseKeys, foldl_cons, stays, later]
      exact ih _ ((List.mem_cons.mp member).resolve_left same)

theorem countP_le_eraseKeys (keys : List κ) : ∀ xs : List α,
    xs.countP isMine ≤ (eraseKeys key keys xs).countP isMine + keys.length := by
  induction keys with
  | nil => exact fun _ => Nat.le_refl _
  | cons k rest ih =>
    intro xs
    have one : xs.countP isMine ≤ (xs.eraseP fun x => key x = k).countP isMine + 1 := by
      by_cases hit : ∃ x ∈ xs, decide (key x = k) = true
      · obtain ⟨x, member, isIt⟩ := hit
        obtain ⟨y, before, after, -, -, same, erased⟩ :=
          exists_of_eraseP (p := fun x => decide (key x = k)) member isIt
        rw [erased, same, countP_append, countP_append, countP_cons]
        split <;> omega
      · have kept : (xs.eraseP fun x => key x = k) = xs :=
          eraseP_of_forall_not fun x member isIt => hit ⟨x, member, isIt⟩
        rw [kept]
        exact Nat.le_succ _
    have later := ih (xs.eraseP fun x => key x = k)
    exact one.trans (Nat.add_le_add_right later 1)

/-- **Erasing mine by their keys** leaves the others exactly when each of mine is the first that is
left with its key. -/
theorem eraseKeys_mine_iff (xs : List α) :
    eraseKeys key ((xs.filter isMine).map key) xs = xs.filter (fun x => !isMine x) ↔
      xs.Pairwise fun y x => isMine x = true → isMine y = false → key y ≠ key x := by
  induction xs with
  | nil => simp [eraseKeys]
  | cons x rest ih =>
    rw [pairwise_cons]
    by_cases mine : isMine x = true
    · rw [filter_cons_of_pos mine, filter_cons_of_neg (by simp [mine]), map_cons,
        eraseKeys_cons_of_mem _ _ mem_cons_self, erase_cons_head, ih]
      simp [mine]
    have notMine := eq_false_of_ne_true mine
    rw [filter_cons_of_neg mine, filter_cons_of_pos (by simp [notMine])]
    by_cases hit : key x ∈ (rest.filter isMine).map key
    · -- An erasure for one of mine takes this one, so that one of mine is left.
      rw [eraseKeys_cons_of_mem _ _ hit]
      constructor
      · intro same
        have bound := @countP_le_eraseKeys α κ _ key isMine
          (((rest.filter isMine).map key).erase (key x)) rest
        rw [same, length_erase_of_mem hit, length_map, ← countP_eq_length_filter]
          at bound
        have none : (x :: rest.filter fun x => !isMine x).countP isMine = 0 := by
          simp [notMine, countP_eq_zero]
        have some : 0 < rest.countP isMine := by
          obtain ⟨y, member, -⟩ := List.mem_map.mp hit
          exact List.countP_pos_iff.mpr ⟨y, List.mem_filter.mp member⟩
        omega
      · rintro ⟨apart, -⟩
        obtain ⟨y, member, same⟩ := List.mem_map.mp hit
        obtain ⟨isIn, isOne⟩ := List.mem_filter.mp member
        exact absurd same.symm (apart y isIn isOne notMine)
    · rw [eraseKeys_cons_of_notMem _ _ hit, cons_inj_right, ih, and_iff_right]
      intro y isIn isOne _ same
      exact hit (List.mem_map.mpr ⟨y, List.mem_filter.mpr ⟨isIn, isOne⟩, same.symm⟩)

end Erasing

theorem removeInvite_events (inviteId eventId : Nat) :
    (s.removeInvite inviteId eventId).events = s.events := by
  rw [removeInvite]
  split
  · rfl
  · split
    · rfl
    · rfl

theorem removeInvite_invites {inviteId eventId : Nat} (live : s.getEvent eventId ≠ none) :
    (s.removeInvite inviteId eventId).invites =
      s.invites.eraseP fun i => (i.eventId, i.inviteId) = (eventId, inviteId) := by
  have sameTest : (fun i : CalendarInvite => decide (i.eventId = eventId ∧ i.inviteId = inviteId)) =
      fun i => decide ((i.eventId, i.inviteId) = (eventId, inviteId)) := by
    funext i
    simp only [Prod.mk.injEq]
  obtain ⟨e, found⟩ := Option.ne_none_iff_exists'.mp live
  rw [removeInvite, found, ← sameTest]
  dsimp only
  split
  · rename_i absent
    refine (eraseP_of_forall_not fun i member isIt => ?_).symm
    obtain ⟨named, isOne⟩ := of_decide_eq_true isIt
    exact List.find?_eq_none.mp absent i (List.mem_filter.mpr ⟨member, decide_eq_true named⟩)
      (decide_eq_true isOne)
  · rfl

def removeInvites (s : CalendarMgr) (invites : List CalendarInvite) : CalendarMgr :=
  invites.foldl (fun s i => s.removeInvite i.inviteId i.eventId) s

theorem foldl_events {turn : CalendarMgr → CalendarInvite → CalendarMgr}
    (keeps : ∀ s i, (turn s i).events = s.events) (invites : List CalendarInvite) :
    ∀ s : CalendarMgr, (invites.foldl turn s).events = s.events := by
  induction invites with
  | nil => exact fun _ => rfl
  | cons i rest ih => exact fun s => (ih _).trans (keeps s i)

theorem getEvent_congr {s : CalendarMgr} (same : s'.events = s.events) (eventId : Nat) :
    s'.getEvent eventId = s.getEvent eventId := by
  rw [getEvent, getEvent, same]

theorem removeInvites_invites (invites : List CalendarInvite) : ∀ s : CalendarMgr,
    (∀ i ∈ invites, s.getEvent i.eventId ≠ none) → (s.removeInvites invites).invites =
      eraseKeys (fun i => (i.eventId, i.inviteId)) (invites.map fun i => (i.eventId, i.inviteId))
        s.invites := by
  induction invites with
  | nil => exact fun _ _ => rfl
  | cons i rest ih =>
    intro s live
    have later := ih (s.removeInvite i.inviteId i.eventId) fun j member => by
      rw [getEvent_congr (removeInvite_events _ _)]
      exact live j (mem_cons_of_mem _ member)
    rw [removeInvite_invites (live i mem_cons_self)] at later
    exact later

theorem mem_removeInvites {i : CalendarInvite} (invites : List CalendarInvite) : ∀ s : CalendarMgr,
    s.getEvent i.eventId = none → i ∈ s.invites → i ∈ (s.removeInvites invites).invites := by
  induction invites with
  | nil => exact fun _ _ member => member
  | cons j rest ih =>
    intro s dead member
    refine ih _ ?_ ?_
    · rw [getEvent_congr (removeInvite_events _ _)]
      exact dead
    by_cases live : s.getEvent j.eventId = none
    · have stays : s.removeInvite j.inviteId j.eventId = s := by
        rw [removeInvite.eq_def, live]
      change i ∈ (s.removeInvite j.inviteId j.eventId).invites
      rw [stays]
      exact member
    · rw [removeInvite_invites live]
      refine (mem_eraseP_of_neg fun same => ?_).mpr member
      have named : i.eventId = j.eventId := (Prod.mk.injEq .. ▸ of_decide_eq_true same).1
      exact live (named ▸ dead)

theorem removeEvents_of_none {isOne : CalendarEvent → Bool} (rest : List CalendarEvent) :
    ∀ passed, (∀ e ∈ rest, isOne e = false) → removeEvents isOne passed rest s = some s := by
  induction rest with
  | nil => exact fun _ _ => rfl
  | cons e rest ih =>
    intro passed quiet
    rw [removeEvents, quiet e mem_cons_self]
    exact ih _ fun e' member => quiet e' (mem_cons_of_mem _ member)

theorem removeEvent_events {eventId : Nat} :
    (s.removeEvent eventId).1.events = s.events.eraseP fun e => e.eventId = eventId := by
  rw [removeEvent]
  split
  · rename_i absent
    refine (eraseP_of_forall_not fun e member isIt => ?_).symm
    exact List.find?_eq_none.mp absent e member isIt
  · rfl

theorem removeEvents_sublist {isOne : CalendarEvent → Bool} (rest : List CalendarEvent) :
    ∀ passed (s s' : CalendarMgr), removeEvents isOne passed rest s = some s' →
      s'.events.Sublist s.events := by
  induction rest with
  | nil =>
    intro passed s s' done
    cases done
    exact List.Sublist.refl _
  | cons e rest ih =>
    intro passed s s' done
    rw [removeEvents] at done
    split at done
    · split at done
      · have later := ih _ _ _ done
        rw [removeEvent_events] at later
        exact later.trans eraseP_sublist
      · cases done
    · exact ih _ _ _ done

/-- **A loop that finds an event** goes on from the one it erased, or has erased another that was to
stay. -/
theorem noEvent_of_removeEvents {isOne : CalendarEvent → Bool} (rest : List CalendarEvent): ∀ passed, s.events = passed ++ rest →
    (∀ e ∈ passed, isOne e = false) → removeEvents isOne passed rest s = some s' →
    s'.events = s.events.filter (fun e => !isOne e) → ∀ e ∈ rest, isOne e = false := by
  induction rest with
  | nil => exact fun _ _ _ _ _ e member => absurd member not_mem_nil
  | cons e rest ih =>
    intro passed same quiet done left
    rw [removeEvents] at done
    split at done
    · split at done
      · rename_i isIt earlier
        obtain ⟨x, member, named⟩ := List.any_eq_true.mp earlier
        obtain ⟨y, before, after, -, -, split, erased⟩ :=
          exists_of_eraseP (p := fun x => decide (x.eventId = e.eventId)) member named
        have fewer := (removeEvents_sublist _ _ _ _ done).filter fun e => !isOne e
        have stays : isOne y = false := quiet y (split ▸ mem_append_right _ mem_cons_self)
        rw [removeEvent_events, left, same, eraseP_append_left
          (p := fun x => decide (x.eventId = e.eventId)) named _ member, erased, split,
          List.filter_filter] at fewer
        have shorter := fewer.length_le
        simp only [filter_append, filter_cons, stays, Bool.not_false, length_append, Bool.and_self,
          if_true, length_cons] at shorter
        omega
      · cases done
    · rename_i notOne
      have notOne := eq_false_of_ne_true notOne
      intro e' member
      rcases List.mem_cons.mp member with rfl | later
      · exact notOne
      refine ih (passed ++ [e]) ?_ (fun x member => ?_) done left e' later
      · rw [same, append_assoc]
        rfl
      · rcases List.mem_append.mp member with before | isIt
        · exact quiet x before
        · rw [List.mem_singleton.mp isIt]
          exact notOne

theorem emptied_iff {isOne : CalendarEvent → Bool} {isMine : CalendarInvite → Bool}
    {finish : CalendarMgr → CalendarMgr} (keeps : ∀ s : CalendarMgr, (finish s).events = s.events)
    (removes : finish s = s.removeInvites (s.invites.filter isMine)) :
    Emptied s ((removeEvents isOne [] s.events s).map finish) isOne isMine ↔
      Removable s isOne isMine := by
  have untouched : (∀ e ∈ s.events, isOne e = false) → ((s.invites.filter fun i =>
      !isMine i && !s.events.any fun e => isOne e && e.eventId = i.eventId) =
        s.invites.filter fun i => !isMine i) := by
    intro quiet
    refine filter_congr fun i _ => ?_
    have clear : (s.events.any fun e => isOne e && decide (e.eventId = i.eventId)) = false :=
      List.any_eq_false.mpr fun e member => by simp [quiet e member]
    rw [clear]
    exact Bool.and_true _
  constructor
  · rintro ⟨s', done, events, invites⟩
    obtain ⟨s'', looped, rfl⟩ := Option.map_eq_some_iff.mp done
    rw [keeps] at events
    have quiet := noEvent_of_removeEvents s.events [] rfl
      (fun e member => absurd member not_mem_nil) looped events
    rw [removeEvents_of_none _ _ quiet] at looped
    cases looped
    rw [removes, untouched quiet] at invites
    have live : ∀ i ∈ s.invites, isMine i = true → s.getEvent i.eventId ≠ none := by
      intro i member mine dead
      have stays := mem_removeInvites (s.invites.filter isMine) s dead member
      rw [invites] at stays
      simpa [mine] using (List.mem_filter.mp stays).2
    refine ⟨quiet, live, ?_⟩
    rw [removeInvites_invites _ _ fun i member =>
      live i (List.mem_filter.mp member).1 (List.mem_filter.mp member).2] at invites
    exact (eraseKeys_mine_iff _).mp invites
  · intro removable
    refine ⟨finish s, ?_, ?_, ?_⟩
    · rw [removeEvents_of_none _ _ removable.noEvent]
      rfl
    · rw [keeps]
      exact (List.filter_eq_self.mpr fun e member => by rw [removable.noEvent e member]; rfl).symm
    · rw [removes, untouched removable.noEvent, removeInvites_invites _ _ fun i member =>
        removable.live i (List.mem_filter.mp member).1 (List.mem_filter.mp member).2]
      exact (eraseKeys_mine_iff _).mpr removable.first

theorem removeSignup_events (guildId : Nat) (s : CalendarMgr) (i : CalendarInvite) :
    (removeSignup guildId s i).events = s.events := by
  rw [removeSignup]
  split
  · split
    · exact removeInvite_events _ _
    · rfl
  · rfl

theorem removeSignups_eq {guid guildId : Nat} (invites : List CalendarInvite) : ∀ s' : CalendarMgr,
    s'.events = s.events →
      (invites.filter fun i => i.invitee = guid).foldl (removeSignup guildId) s' =
        s'.removeInvites (invites.filter (s.isSignup guid guildId)) := by
  induction invites with
  | nil => exact fun _ _ => rfl
  | cons i rest ih =>
    intro s' same
    have turn : removeSignup guildId s' i =
        if ((s.getEvent i.eventId).any fun e => e.isGuildEvent && e.guildId = guildId) = true then
          s'.removeInvite i.inviteId i.eventId
        else s' := by
      rw [removeSignup, getEvent_congr same]
      cases s.getEvent i.eventId with
      | none => rfl
      | some e => rfl
    by_cases invited : i.invitee = guid
    · rw [filter_cons_of_pos (by simpa using invited), foldl_cons, turn]
      split
      · rename_i isFor
        rw [filter_cons_of_pos (by simp [isSignup, invited, isFor])]
        exact ih _ ((removeInvite_events _ _).trans same)
      · rename_i notFor
        rw [filter_cons_of_neg (by simp [isSignup, notFor])]
        exact ih s' same
    · rw [filter_cons_of_neg (by simpa using invited),
        filter_cons_of_neg (by simp [isSignup, invited])]
      exact ih s' same

/-- **When removing a player empties his calendar**: he created no event of those that are to go, and
his invites can be removed. -/
theorem removal_iff (s : CalendarMgr) (guid guildId : Nat) :
    (Emptied s (s.removeAllPlayerEventsAndInvites guid) (fun e => e.creatorGUID = guid)
        (fun i => i.invitee = guid) ↔
      Removable s (fun e => e.creatorGUID = guid) fun i => i.invitee = guid) ∧
    (Emptied s (s.removePlayerGuildEventsAndSignups guid guildId)
        (fun e => e.creatorGUID = guid && (e.isGuildEvent || e.isGuildAnnouncement))
        (s.isSignup guid guildId) ↔
      Removable s (fun e => e.creatorGUID = guid && (e.isGuildEvent || e.isGuildAnnouncement))
        (s.isSignup guid guildId)) :=
  ⟨emptied_iff (fun s => foldl_events (fun _ _ => removeInvite_events _ _) _ s) rfl,
    emptied_iff (fun s => foldl_events (removeSignup_events guildId) _ s) (removeSignups_eq s.invites s rfl)⟩

/-- The player 1 is removed with the event he wrote: the iterator of the event is advanced. -/
theorem created_event_advanced : ¬ ∀ (events : List CalendarEvent) (invites : List CalendarInvite)
    (inputs : List (Sender × CalendarRequest)) (guid : Nat),
    (events.map CalendarEvent.eventId).Nodup → (invites.map CalendarInvite.inviteId).Nodup →
    let s := Machine.run step (loadFromDB events invites) inputs
    Emptied s (s.removeAllPlayerEventsAndInvites guid) (fun e => e.creatorGUID = guid)
      fun i => i.invitee = guid := by
  intro always
  obtain ⟨s', done, -⟩ := always [] [] [(⟨1, 0, true⟩, .addEvent ⟨"", "", 0, 0, 0, 0, 0⟩ [])] 1
    nodup_nil nodup_nil
  cases done

end CalendarMgr

end Sky548
