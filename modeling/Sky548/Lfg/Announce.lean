import Sky548.Lfg.Match

/-!
# New proposals and their announcement

The part of `LFGMgr::Update` (`LFGMgr.cpp`) that searches all queues and then tells
the players of the new proposals. The loop that tells them starts at
`ProposalsStore.find(m_lfgProposalId)`, the last id that was given out; that of the
tick's first proposal is `lastProposalId + 1`, and a comment of the source asks for it.
-/

namespace Sky548

open List

/-- `LFGMgr`, as far as a search and the announcement of its proposals go. `sent` has
what `SendLfgUpdateProposal` was called with in this tick. -/
structure LFGMgr where
  queuesStore : OrdMap UInt8 LFGQueue
  proposals : LfgProposals
  env : LfgEnv
  /-- `GetGroup` -/
  group : UInt64 → UInt64
  sent : List (UInt64 × UInt32)

namespace LFGMgr

/-- `SetState`; the states it is called with here leave the old state alone. -/
def setState (m : LFGMgr) (guid : UInt64) (state : LfgState) : LFGMgr :=
  { m with
    env := { m.env with state := fun other => if other = guid then state else m.env.state other } }

def findGroups (m : LFGMgr) (id : UInt8) : LFGMgr :=
  match m.queuesStore.find? id with
  | none => m
  | some queue =>
    let found := (LfgSearch.findGroups m.env ⟨queue, m.proposals⟩).1
    { m with
      queuesStore := m.queuesStore.insert id found.queue
      proposals := found.proposals }

/-- The loop over `QueuesStore`. -/
def findAllGroups (m : LFGMgr) : LFGMgr := m.queuesStore.keys.foldl findGroups m

def announceTo (id : UInt32) (m : LFGMgr) (guid : UInt64) : LFGMgr :=
  let m := m.setState guid .proposal
  let m := if m.group guid ≠ 0 then m.setState (m.group guid) .proposal else m
  { m with sent := m.sent ++ [(guid, id)] }

/-- The loop body for a new proposal. A stored one is open, so that the call of
`UpdateProposal` for a successful one is never made. -/
def announce (m : LFGMgr) (e : UInt32 × LfgProposal) : LFGMgr :=
  e.2.players.keys.foldl (announceTo e.1) m

/-- The loop from `ProposalsStore.find(m_lfgProposalId)` to the end. -/
def announceAll (m : LFGMgr) : LFGMgr :=
  match m.proposals.proposalsStore.find? m.proposals.lfgProposalId with
  | none => m
  | some _ =>
    (m.proposals.proposalsStore.toList.filter fun e => m.proposals.lfgProposalId ≤ e.1).foldl
      announce m

/-- `LFGMgr::Update` from `lastProposalId` on. -/
def update (m : LFGMgr) : LFGMgr :=
  let found := { m with sent := [] }.findAllGroups
  if m.proposals.lfgProposalId ≠ found.proposals.lfgProposalId then found.announceAll else found

def newProposals (m : LFGMgr) : List UInt32 :=
  m.update.proposals.created.drop m.proposals.created.length

/-- Everybody in the proposal has the state of it, with his group, and has been sent
it. -/
def Announced (m : LFGMgr) (id : UInt32) (proposal : LfgProposal) : Prop :=
  ∀ guid ∈ proposal.players.keys, m.env.state guid = .proposal ∧
    (m.group guid ≠ 0 → m.env.state (m.group guid) = .proposal) ∧
    (guid, id) ∈ m.sent

/-- **Every new proposal is announced** by the end of the tick. -/
def AllAnnounced (m : LFGMgr) : Prop :=
  ∀ id ∈ m.newProposals, ∀ proposal, (id, proposal) ∈ m.update.proposals.proposalsStore →
    m.update.Announced id proposal

end LFGMgr

namespace LfgProposals

def Has (p : LfgProposals) (id : UInt32) : Prop :=
  ∃ proposal, (id, proposal) ∈ p.proposalsStore ∧ proposal.players.keys ≠ []

/-- What `AddProposal` makes of the proposals, any number of times. -/
inductive Made (p : LfgProposals) : LfgProposals → Prop
  | refl : Made p p
  | add {p' : LfgProposals} {proposal : LfgProposal} {isOpen : proposal.state = .initiating} :
    Made p p' → proposal.players.keys ≠ [] → Made p (p'.addProposal proposal isOpen)

variable {p p' p'' : LfgProposals}

theorem Made.trans (first : Made p p') (second : Made p' p'') : Made p p'' := by
  induction second with
  | refl => exact first
  | add _ players ih => exact .add ih players

theorem Has.addProposal {id : UInt32} {proposal : LfgProposal} (has : p.Has id)
    (players : proposal.players.keys ≠ []) (isOpen : proposal.state = .initiating) :
    (p.addProposal proposal isOpen).Has id := by
  by_cases same : id = p.lfgProposalId + 1
  · subst same
    exact ⟨_, OrdMap.mem_insert.mpr (Or.inl rfl), players⟩
  · obtain ⟨old, member, oldPlayers⟩ := has
    exact ⟨old, OrdMap.mem_insert.mpr (Or.inr ⟨member, same⟩), oldPlayers⟩

theorem Made.ids (made : Made p p') : ∃ ids, p'.created = p.created ++ ids ∧
    (∀ id ∈ ids, p'.Has id) ∧
    (ids = [] → p' = p) ∧
    (ids ≠ [] → p'.lfgProposalId ∈ ids) ∧
    (ids.length = 1 → p'.lfgProposalId = p.lfgProposalId + 1 ∧ ids = [p'.lfgProposalId]) ∧
    (2 ≤ ids.length → p'.lfgProposalId - 1 ∈ ids) := by
  induction made with
  | refl =>
    refine ⟨[], (append_nil _).symm, ?_, fun _ => rfl, fun isNew => absurd rfl isNew, ?_, ?_⟩
    · exact fun _ isNew => absurd isNew not_mem_nil
    · exact fun one => absurd one (by simp)
    · exact fun two => absurd two (by simp)
  | @add p' proposal isOpen _ players ih =>
    obtain ⟨ids, created, stored, none, last, -, -⟩ := ih
    refine ⟨ids ++ [p'.lfgProposalId + 1], ?_, ?_, ?_, ?_, ?_, ?_⟩
    · change p'.created ++ [p'.lfgProposalId + 1] = _
      rw [created, append_assoc]
    · intro id member
      rcases List.mem_append.mp member with old | isNew
      · exact (stored id old).addProposal players isOpen
      · rw [List.mem_singleton.mp isNew]
        exact ⟨_, OrdMap.mem_insert.mpr (Or.inl rfl), players⟩
    · intro isEmpty
      simp at isEmpty
    · exact fun _ => mem_append_right _ mem_cons_self
    · intro one
      rw [length_append, length_singleton] at one
      have isEmpty : ids = [] := List.length_eq_zero_iff.mp (by omega)
      subst isEmpty
      refine ⟨?_, rfl⟩
      change p'.lfgProposalId + 1 = _
      rw [none rfl]
    · intro two
      rw [length_append, length_singleton] at two
      have isNew : ids ≠ [] := ne_nil_of_length_pos (by omega)
      have before : p'.lfgProposalId + 1 - 1 = p'.lfgProposalId := UInt32.add_sub_cancel _ _
      refine mem_append_left _ ?_
      change p'.lfgProposalId + 1 - 1 ∈ ids
      rw [before]
      exact last isNew

end LfgProposals

namespace LfgSearch

open LfgProposals

variable {env : LfgEnv}

theorem conclude_made (env : LfgEnv) (check : List UInt64) (s : LfgSearch) :
    Made s.proposals (s.conclude env check).1.proposals := by
  unfold conclude
  split
  · exact .refl
  · exact .refl
  · rename_i c roles dungeons isGroup
    split
    · exact .refl
    have five := (LFGQueue.fits_of_assess isGroup).five
    refine .add .refl ?_
    change OrdMap.keys (OrdMap.mapVal _ roles) ≠ []
    rw [OrdMap.keys_mapVal]
    intro noPlayers
    have size : roles.keys.length = roles.size := length_map _
    rw [noPlayers, five] at size
    cases size

theorem checkCompatibility_made (env : LfgEnv) (check : List UInt64) : ∀ s : LfgSearch,
    Made s.proposals (s.checkCompatibility env check).1.proposals := by
  induction check with
  | nil => exact fun _ => .refl
  | cons front rest ih =>
    intro s
    unfold checkCompatibility
    split
    · exact .refl
    split
    · dsimp only
      split
      · exact ih s
      · exact (ih s).trans (conclude_made env _ _)
    · exact conclude_made env _ s

theorem compatibility_made (env : LfgEnv) (check : List UInt64) (s : LfgSearch) :
    Made s.proposals (s.compatibility env check).1.proposals := by
  have known : Made s.proposals (if s.queue.getCompatibles (concatenateGuids check) = .pending
      then s.checkCompatibility env check
      else (s, s.queue.getCompatibles (concatenateGuids check))).1.proposals := by
    split
    · exact checkCompatibility_made env check s
    · exact .refl
  unfold compatibility
  dsimp only
  generalize (if s.queue.getCompatibles (concatenateGuids check) = .pending
      then s.checkCompatibility env check
      else (s, s.queue.getCompatibles (concatenateGuids check))) = found at known ⊢
  split
  · exact known
  · exact known

theorem matchQueued_made (env : LfgEnv) (all : List UInt64) : ∀ (check : List UInt64)
    (s : LfgSearch), Made s.proposals (s.matchQueued env check all).1.proposals := by
  induction all with
  | nil => exact fun _ _ => .refl
  | cons next all ih =>
    intro check s
    have sub := compatibility_made env (check ++ [next]) s
    unfold matchQueued
    dsimp only
    split
    · exact sub
    · split
      · exact sub.trans (ih _ _)
      · exact sub.trans (ih _ _)

theorem findGroup_made (env : LfgEnv) (frontguid : UInt64) (s : LfgSearch) :
    Made s.proposals (s.findGroup env frontguid).1.proposals := by
  have found : ∀ (all : List UInt64) (s : LfgSearch),
      Made s.proposals (s.findNewGroups env [frontguid] all).1.proposals := by
    intro all s
    unfold findNewGroups
    dsimp only
    split
    · exact (compatibility_made env _ s).trans (matchQueued_made env all _ _)
    · exact compatibility_made env _ s
  unfold findGroup
  dsimp only
  split
  · exact found _ { s with queue := s.queue.removeFromNewQueue frontguid }
  · exact found _ { s with queue := s.queue.removeFromNewQueue frontguid }

theorem findGroupsLoop_made (env : LfgEnv) (n : Nat) : ∀ s : LfgSearch × UInt8,
    Made s.1.proposals (findGroupsLoop env n s).1.proposals := by
  induction n with
  | zero => exact fun _ => .refl
  | succ n ih =>
    intro s
    unfold findGroupsLoop
    split
    · exact .refl
    · rename_i frontguid _ _
      exact (findGroup_made env frontguid s.1).trans (ih ((s.1.findGroup env frontguid).1, _))

end LfgSearch

namespace LFGMgr

open LfgProposals

variable {m : LFGMgr}

theorem findAllGroups_made (m : LFGMgr) : Made m.proposals m.findAllGroups.proposals ∧
    m.findAllGroups.sent = m.sent := by
  have general : ∀ (ids : List UInt8) (m : LFGMgr),
      Made m.proposals (ids.foldl findGroups m).proposals ∧
        (ids.foldl findGroups m).sent = m.sent := by
    refine fun ids m => foldlRecOn (motive := fun m' : LFGMgr => Made m.proposals m'.proposals ∧ m'.sent = _)
      ids _ ⟨.refl, rfl⟩ fun m' before id _ => ?_
    unfold findGroups
    split
    · exact before
    · rename_i queue _
      exact ⟨before.1.trans (LfgSearch.findGroupsLoop_made m'.env _ (⟨queue, m'.proposals⟩, 0)), before.2⟩
  exact general _ m

@[simp] theorem group_announceTo (id : UInt32) (m : LFGMgr) (guid : UInt64) :
    (m.announceTo id guid).group = m.group := by
  unfold announceTo
  dsimp only
  split
  · rfl
  · rfl

@[simp] theorem proposals_announceTo (id : UInt32) (m : LFGMgr) (guid : UInt64) :
    (m.announceTo id guid).proposals = m.proposals := by
  unfold announceTo
  dsimp only
  split
  · rfl
  · rfl

theorem sent_announceTo (id : UInt32) (m : LFGMgr) (guid : UInt64) :
    (m.announceTo id guid).sent = m.sent ++ [(guid, id)] := by
  unfold announceTo
  dsimp only
  split
  · rfl
  · rfl

theorem state_announceTo {other : UInt64} (id : UInt32) (guid : UInt64)
    (already : m.env.state other = .proposal) :
    (m.announceTo id guid).env.state other = .proposal := by
  have keep : ∀ (m : LFGMgr) (guid : UInt64), m.env.state other = .proposal →
      (m.setState guid .proposal).env.state other = .proposal := by
    intro m guid already
    unfold setState
    dsimp only
    split
    · rfl
    · exact already
  unfold announceTo
  dsimp only
  split
  · exact keep _ _ (keep _ _ already)
  · exact keep _ _ already

/-- A player to whom a proposal has been announced. -/
def ToldOf (m : LFGMgr) (id : UInt32) (guid : UInt64) : Prop :=
  m.env.state guid = .proposal ∧
    (m.group guid ≠ 0 → m.env.state (m.group guid) = .proposal) ∧ (guid, id) ∈ m.sent

theorem ToldOf.announceTo {id other : UInt32} {guid : UInt64} (told : m.ToldOf id guid)
    (player : UInt64) : (m.announceTo other player).ToldOf id guid := by
  refine ⟨state_announceTo _ _ told.1, fun isGroup => ?_, ?_⟩
  · rw [group_announceTo] at isGroup ⊢
    exact state_announceTo _ _ (told.2.1 isGroup)
  · rw [sent_announceTo]
    exact mem_append_left _ told.2.2

theorem toldOf_announceTo (id : UInt32) (m : LFGMgr) (guid : UInt64) :
    (m.announceTo id guid).ToldOf id guid := by
  refine ⟨?_, fun isGroup => ?_, ?_⟩
  · unfold LFGMgr.announceTo setState
    dsimp only
    split
    · dsimp only
      split
      · rfl
      · exact if_pos rfl
    · exact if_pos rfl
  · rw [group_announceTo] at isGroup ⊢
    unfold LFGMgr.announceTo
    dsimp only
    rw [if_pos (show (m.setState guid .proposal).group guid ≠ 0 from isGroup)]
    exact if_pos rfl
  · rw [sent_announceTo]
    exact mem_append_right _ mem_cons_self

theorem foldl_announceTo (id : UInt32) (players : List UInt64) : ∀ m : LFGMgr,
    (∀ guid ∈ players, (players.foldl (LFGMgr.announceTo id) m).ToldOf id guid) ∧
    (∀ old guid, m.ToldOf old guid → (players.foldl (LFGMgr.announceTo id) m).ToldOf old guid) ∧
    (∀ e, e ∈ (players.foldl (LFGMgr.announceTo id) m).sent → e ∈ m.sent ∨ e.2 = id) ∧
    (players.foldl (LFGMgr.announceTo id) m).proposals = m.proposals := by
  induction players with
  | nil => exact fun m => ⟨nofun, fun _ _ told => told, fun _ => Or.inl, rfl⟩
  | cons player rest ih =>
    intro m
    obtain ⟨all, keep, sent, same⟩ := ih (m.announceTo id player)
    refine ⟨fun guid member => ?_, fun old guid told => keep old guid (told.announceTo player),
      fun e member => ?_, same.trans (proposals_announceTo id m player)⟩
    · rcases List.mem_cons.mp member with rfl | inRest
      · exact keep id guid (toldOf_announceTo id m guid)
      · exact all guid inRest
    rcases sent e member with before | now
    · rw [sent_announceTo] at before
      rcases List.mem_append.mp before with earlier | isNew
      · exact Or.inl earlier
      · exact Or.inr (by rw [List.mem_singleton.mp isNew])
    · exact Or.inr now

theorem foldl_announce (entries : List (UInt32 × LfgProposal)) : ∀ m : LFGMgr,
    (∀ e ∈ entries, (entries.foldl LFGMgr.announce m).Announced e.1 e.2) ∧
    (∀ id guid, m.ToldOf id guid → (entries.foldl LFGMgr.announce m).ToldOf id guid) ∧
    (∀ d, d ∈ (entries.foldl LFGMgr.announce m).sent → d ∈ m.sent ∨ d.2 ∈ entries.map Prod.fst) ∧
    (entries.foldl LFGMgr.announce m).proposals = m.proposals := by
  induction entries with
  | nil => exact fun m => ⟨nofun, fun _ _ told => told, fun _ => Or.inl, rfl⟩
  | cons first rest ih =>
    intro m
    obtain ⟨all, keep, sent, same⟩ := ih (m.announce first)
    obtain ⟨told, keep', sent', same'⟩ := foldl_announceTo first.1 first.2.players.keys m
    refine ⟨fun e member => ?_, fun id guid before => keep id guid (keep' id guid before),
      fun d member => ?_, same.trans same'⟩
    · rcases List.mem_cons.mp member with rfl | inRest
      · exact fun guid isPlayer => keep e.1 guid (told guid isPlayer)
      · exact all e inRest
    rw [map_cons, mem_cons]
    rcases sent d member with before | later
    · rcases sent' d before with earlier | now
      · exact Or.inl earlier
      · exact Or.inr (Or.inl now)
    · exact Or.inr (Or.inr later)

theorem toldOf_of_announceAll (m : LFGMgr) : m.announceAll.proposals = m.proposals ∧
    (m.proposals.Has m.proposals.lfgProposalId →
      ∀ e ∈ m.proposals.proposalsStore, m.proposals.lfgProposalId ≤ e.1 →
        m.announceAll.Announced e.1 e.2) ∧
    (∀ d ∈ m.announceAll.sent, d ∈ m.sent ∨ m.proposals.lfgProposalId ≤ d.2) := by
  unfold announceAll
  split
  · rename_i absent
    refine ⟨rfl, fun has => ?_, fun _ => Or.inl⟩
    obtain ⟨proposal, member, -⟩ := has
    rw [OrdMap.find?_eq_some_iff.mpr member] at absent
    cases absent
  · obtain ⟨all, -, sent, same⟩ := foldl_announce
      (m.proposals.proposalsStore.toList.filter fun e => m.proposals.lfgProposalId ≤ e.1) m
    refine ⟨same, fun _ e member above => all e ?_, fun d member => ?_⟩
    · exact List.mem_filter.mpr ⟨member, decide_eq_true above⟩
    · rcases sent d member with before | now
      · exact Or.inl before
      · obtain ⟨e, isEntry, isId⟩ := List.mem_map.mp now
        exact Or.inr (isId ▸ of_decide_eq_true (List.mem_filter.mp isEntry).2)

theorem not_allAnnounced {id : UInt32} (isNew : id ∈ m.newProposals)
    (has : m.update.proposals.Has id) (unsent : ∀ guid, (guid, id) ∉ m.update.sent) :
    ¬ m.AllAnnounced := by
  intro all
  obtain ⟨proposal, member, players⟩ := has
  obtain ⟨guid, isPlayer⟩ := exists_mem_of_ne_nil _ players
  exact unsent guid (all id isNew proposal member guid isPlayer).2.2

/-- **Every new proposal is announced exactly in ticks that create at most one**, or
whose last id has run over to 0. -/
theorem allAnnounced_iff (m : LFGMgr) : m.AllAnnounced ↔ m.newProposals.length ≤ 1 ∨
      (m.update.proposals.lfgProposalId = 0 ∧ m.proposals.lfgProposalId ≠ 0) := by
  obtain ⟨made, sent⟩ := findAllGroups_made { m with sent := [] }
  obtain ⟨ids, created, stored, none, last, one, two⟩ := made.ids
  generalize isFound : findAllGroups { m with sent := [] } = found at *
  have proposals : m.update.proposals = found.proposals := by
    unfold update
    rw [isFound]
    dsimp only
    split
    · exact (toldOf_of_announceAll found).1
    · rfl
  have isNew : m.newProposals = ids := by
    unfold newProposals
    rw [proposals, created]
    exact drop_left
  unfold AllAnnounced
  rw [isNew, proposals]
  by_cases moved : m.proposals.lfgProposalId = found.proposals.lfgProposalId
  · -- no announcement
    have quiet : m.update = found := by
      unfold update
      rw [isFound]
      rw [if_neg (not_not.mpr moved)]
    constructor
    · intro all
      refine Or.inl (Nat.le_of_not_lt fun several => ?_)
      have isLast := last (ne_nil_of_length_pos (by omega))
      refine not_allAnnounced (m := m) (isNew.symm ▸ isLast) (proposals.symm ▸ stored _ isLast)
        (fun guid => ?_) ?_
      · rw [quiet, sent]
        exact not_mem_nil
      · unfold AllAnnounced
        rw [isNew, proposals]
        exact all
    · intro either id member
      exfalso
      rcases either with few | ⟨isZero, notZero⟩
      · have single : ids.length = 1 := by
          have := length_pos_of_mem member
          omega
        have up := (one single).1
        rw [← moved] at up
        exact absurd (up : m.proposals.lfgProposalId = m.proposals.lfgProposalId + 1) (by simp)
      · exact notZero (moved.trans isZero)
  · have loud : m.update = found.announceAll := by
      unfold update
      rw [isFound]
      rw [if_pos moved]
    obtain ⟨-, told, heard⟩ := toldOf_of_announceAll found
    constructor
    · intro all
      by_cases isZero : found.proposals.lfgProposalId = 0
      · exact Or.inr ⟨isZero, fun wasZero => moved (wasZero.trans isZero.symm)⟩
      refine Or.inl (Nat.le_of_not_lt fun several => ?_)
      have isBefore := two several
      refine not_allAnnounced (m := m) (isNew.symm ▸ isBefore)
        (proposals.symm ▸ stored _ isBefore) (fun guid isSent => ?_) ?_
      · rw [loud] at isSent
        rcases heard _ isSent with old | above
        · rw [sent] at old
          cases old
        have above : found.proposals.lfgProposalId ≤ found.proposals.lfgProposalId - 1 := above
        have pos : found.proposals.lfgProposalId.toNat ≠ 0 :=
          fun zero => isZero (UInt32.toNat_inj.mp zero)
        have one : (1 : UInt32) ≤ found.proposals.lfgProposalId := by
          rw [UInt32.le_iff_toNat_le]
          exact Nat.one_le_iff_ne_zero.mpr pos
        rw [UInt32.le_iff_toNat_le, UInt32.toNat_sub_of_le _ _ one] at above
        change _ ≤ _ - 1 at above
        omega
      · unfold AllAnnounced
        rw [isNew, proposals]
        exact all
    · intro either id member proposal isStored
      rw [loud]
      have nonempty : ids ≠ [] := ne_nil_of_mem member
      refine told (stored _ (last nonempty)) (id, proposal) isStored ?_
      rcases either with few | ⟨isZero, -⟩
      · have single : ids.length = 1 := by
          have := length_pos_of_ne_nil nonempty
          omega
        rw [(one single).2] at member
        exact UInt32.le_of_eq (List.mem_singleton.mp member).symm
      · rw [isZero, UInt32.le_iff_toNat_le]
        exact Nat.zero_le _

/-- One tank, one healer and three others, with GUIDs from `first` on. -/
def fiveFrom (first : UInt64) : LfgRolesMap :=
  [(first, playerRoleTank), (first + 1, playerRoleHealer), (first + 2, playerRoleDamage),
    (first + 3, playerRoleDamage), (first + 4, playerRoleDamage)].foldl
    (fun roles e => roles.insert e.1 e.2) .empty

/-- Two full groups have queued, and the next tick is to find both. -/
def twoGroups : LFGMgr where
  queuesStore := OrdMap.empty.insert 1 ((LFGQueue.empty.addQueueData (makeNewGuid 1 0 highGuidGroup)
      ⟨OrdMap.empty.insert 1 (), fiveFrom 1, oneDungeon_ne, by decide, by decide⟩).addQueueData
      (makeNewGuid 2 0 highGuidGroup)
      ⟨OrdMap.empty.insert 1 (), fiveFrom 6, oneDungeon_ne, by decide, by decide⟩)
  proposals := .empty
  env :=
    { state := fun _ => .queued
      oldState := fun _ => .none
      ignored := fun _ => none
      urand := fun _ _ => 0
      now := 0 }
  group guid := if guid ≤ 5 then makeNewGuid 1 0 highGuidGroup else makeNewGuid 2 0 highGuidGroup
  sent := []

set_option maxRecDepth 4000 in
/-- The first of two new proposals is left with its players queued. -/
theorem not_allAnnounced_of_two_groups : ¬ twoGroups.AllAnnounced := by
  intro all
  have stored : ((twoGroups.update.proposals.proposalsStore.find? 1).map
      (·.players.keys)) = some [1, 2, 3, 4, 5] := by decide
  have isNew : (1 : UInt32) ∈ twoGroups.newProposals := by decide
  obtain ⟨proposal, found, players⟩ := Option.map_eq_some_iff.mp stored
  have told := all 1 isNew proposal (OrdMap.find?_eq_some_iff.mp found) 1 (by simp [players])
  have queued : twoGroups.update.env.state 1 = .queued := by decide
  rw [queued] at told
  cases told.1

end LFGMgr

end Sky548
