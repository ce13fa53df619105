import Sky548.Lfg.Match
import Sky548.Machine

/-!
# Proposals and their end

What becomes of a proposal (`LFGMgr.cpp`): `UpdateProposal` with an answer,
`RemoveProposal` with a refusal or at the end of its time, and the two loops of
`LFGMgr::Update` that see to them. `LfgSearch.step` is a queue with its proposals
taking one event after another.
-/

namespace Sky548

namespace LfgProposal

/-- "Mark all people that didn't answered as no accept" -/
def markUnanswered (p : LfgProposal) : LfgProposal :=
  { p with
    players := p.players.mapVal fun _ player =>
      if player.accept = .pending then { player with accept := .deny } else player }

def answer (p : LfgProposal) (guid : UInt64) (player : LfgProposalPlayer) (accept : LfgAnswer) :
    LfgProposal :=
  { p with players := p.players.insert guid { player with accept := accept } }

def allAnswered (p : LfgProposal) : Bool := p.players.toList.all fun e => e.2.accept = .agree

/-- `toRemove`: the group, or the player without one, of everybody who refuses.
`failed` is `LFG_UPDATETYPE_PROPOSAL_FAILED`. -/
def toRemove (p : LfgProposal) (failed : Bool) : OrdMap UInt64 Unit :=
  p.players.toList.foldl (fun toRemove e =>
    if e.2.accept = .agree then toRemove
    else if e.2.accept = .deny || failed then
      toRemove.insert (if e.2.group ≠ 0 then e.2.group else e.1) ()
    else toRemove) .empty

end LfgProposal

namespace LfgSearch

def removeProposal (failed : Bool) (s : LfgSearch) (id : UInt32) : LfgSearch :=
  match s.proposals.proposalsStore.find? id with
  | none => s
  | some proposal =>
    let proposal := if failed then proposal.markUnanswered else proposal
    let toRemove := (proposal.toRemove failed).keys
    let queue := toRemove.foldl LFGQueue.removeFromQueue s.queue
    let queues := toRemove.foldl LFGQueue.removeAll proposal.queues
    { queue := queues.foldl LFGQueue.addToQueue queue
      proposals := s.proposals.erase id }

def setAnswer (s : LfgSearch) (id : UInt32) (proposal : LfgProposal)
    (isOpen : proposal.state = .initiating) (guid : UInt64) (player : LfgProposalPlayer)
    (accept : LfgAnswer) : LfgSearch :=
  { s with proposals := s.proposals.set id (proposal.answer guid player accept) isOpen }

theorem isOpen_of_find? {s : LfgSearch} {id : UInt32} {proposal : LfgProposal}
    (found : s.proposals.proposalsStore.find? id = some proposal) :
    proposal.state = .initiating :=
  s.proposals.initiating (id, proposal) (OrdMap.find?_eq_some_iff.mp found)

/-- The end of `UpdateProposal`: "Remove players/groups from Queue". -/
def completeProposal (s : LfgSearch) (id : UInt32) (proposal : LfgProposal) : LfgSearch where
  queue := proposal.queues.foldl LFGQueue.removeFromQueue s.queue
  proposals := s.proposals.erase id

def updateProposal (s : LfgSearch) (id : UInt32) (guid : UInt64) (accept : Bool) : LfgSearch :=
  match found : s.proposals.proposalsStore.find? id with
  | none => s
  | some proposal =>
    match proposal.players.find? guid with
    | none => s
    | some player =>
      let answer := if accept then .agree else .deny
      let s := s.setAnswer id proposal (isOpen_of_find? found) guid player answer
      if !accept then s.removeProposal false id
      else if !(proposal.answer guid player answer).allAnswered then s
      else s.completeProposal id (proposal.answer guid player answer)

/-- `LeaveLfg` in `LFG_STATE_PROPOSAL`: the first proposal that the player, or the
leader of his group, is in. -/
def leaveProposal (s : LfgSearch) (pguid : UInt64) : LfgSearch :=
  match s.proposals.proposalsStore.keys.find? fun id =>
      ((s.proposals.proposalsStore.find? id).bind (·.players.find? pguid)).isSome with
  | none => s
  | some id => s.updateProposal id pguid false

def removeObsolete (now : Nat) (s : LfgSearch) (id : UInt32) : LfgSearch :=
  match s.proposals.proposalsStore.find? id with
  | none => s
  | some proposal => if proposal.cancelTime < now then s.removeProposal true id else s

/-- `LFGMgr::Update`, as far as this queue goes. -/
def update (env : LfgEnv) (s : LfgSearch) : LfgSearch :=
  ((s.proposals.proposalsStore.keys.foldl (removeObsolete env.now) s).findGroups env).1

end LfgSearch

/-- What happens to a queue and its proposals. -/
inductive LfgEvent
  | addQueueData (guid : UInt64) (data : LfgQueueData)
  | removeFromQueue (guid : UInt64)
  | findGroups (env : LfgEnv)
  | updateProposal (id : UInt32) (guid : UInt64) (accept : Bool)
  | leaveProposal (pguid : UInt64)
  | update (env : LfgEnv)

namespace LfgSearch

def empty : LfgSearch := ⟨.empty, .empty⟩

def step (s : LfgSearch) : LfgEvent → LfgSearch
  | .addQueueData guid data => { s with queue := s.queue.addQueueData guid data }
  | .removeFromQueue guid => { s with queue := s.queue.removeFromQueue guid }
  | .findGroups env => (s.findGroups env).1
  | .updateProposal id guid accept => s.updateProposal id guid accept
  | .leaveProposal pguid => s.leaveProposal pguid
  | .update env => s.update env

end LfgSearch

end Sky548
