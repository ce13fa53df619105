import Sky548.Machine
import Sky548.Guild.BankMoves

/-!
# The daily limits of the guild bank

A day of a guild bank is a run of `HandleMemberWithdrawMoney` and item moves by anyone, from the
reset at which nobody has withdrawn anything. `BankDay` keeps beside the bank what was paid out and
moved out so far, and `Limited` says of a member what his rank's settings promise about it.

The counters of the code agree with that account (`Reckoned`), and the slots per day always hold.
The money does not: one limit serves two rights, and the product it is computed from is an `int32`.
-/

namespace Sky548

open List GuildBank
open Function (update update_of_ne update_self)

namespace GuildBank

variable (b : GuildBank) (m : Member)

def moneyPerDay : Nat :=
  (b.getRankBank m.rankId).elim 0 fun rankInfo => rankInfo.bankMoneyPerDay.toNat * gold.toNat

/-- The items that a member may take from a tab in a day. -/
def slotsPerDay (tabId : UInt8) : Nat :=
  (b.getRankBank m.rankId).elim 0 fun rankInfo => (rankInfo.bankTabRightsAndSlots tabId).slots.toNat

/-- Whether a member has the right to take money, for a repair or as gold. -/
def Entitled (repair : Bool) : Prop :=
  b.guild.ranks.getRankRights m.rankId &&&
    (if repair then grRightWithdrawRepair ||| grRightWithdrawGold else grRightWithdrawGold) ≠ 0

instance (repair : Bool) : Decidable (b.Entitled m repair) :=
  inferInstanceAs (Decidable (_ ≠ _))

/-- The money that the code lets a member take in a day: the same product, as an `int32`. -/
def dayMoney : Int := toInt32 (b.getRankBankMoneyPerDay m.rankId * gold)

end GuildBank

/-- The tabs that an item leaves when it moves from the one side to the other. -/
def MoveItemData.leaves (data pOther : MoveItemData) : List UInt8 :=
  match data with
  | .bank container _ => if pOther.isBank && pOther.container = container then [] else [container]
  | .player _ _ => []

namespace BankCall

def src : BankCall → MoveItemData
  | .swapItems tabId slotId _ _ _ => .bank tabId slotId
  | .swapItemsWithInventory toChar tabId slotId playerBag playerSlotId _ =>
    if toChar then .bank tabId slotId else .player playerBag playerSlotId

def dest : BankCall → MoveItemData
  | .swapItems _ _ destTabId destSlotId _ => .bank destTabId destSlotId
  | .swapItemsWithInventory toChar tabId slotId playerBag playerSlotId _ =>
    if toChar then .player playerBag playerSlotId else .bank tabId slotId

end BankCall

def MoveResult.tabsLeft (result : MoveResult) (pSrc pDest : MoveItemData) : List UInt8 :=
  match result with
  | .rejected => []
  | .moved => pSrc.leaves pDest
  | .swapped => pSrc.leaves pDest ++ pDest.leaves pSrc

/-- A guild bank and what players own, with what was paid out and moved out since the daily reset,
by the low GUID of the member. -/
structure BankDay where
  world : BankWorld
  money : UInt64 → UInt64
  goldPaid : UInt32 → Nat
  repairPaid : UInt32 → Nat
  movedOut : UInt32 → UInt8 → Nat
  /-- a request within the member's rights and limit was refused for the limit -/
  wronglyRefused : UInt32 → Bool

inductive BankEvent
  | withdrawMoney (player amount : UInt64) (repair : Bool)
  | moveItems (player : UInt64) (now : Circumstances) (call : BankCall)

namespace BankDay

variable (R : ItemRules)

def start (items : ItemWorld) (bank : GuildBank) (money : UInt64 → UInt64) : BankDay where
  world := ⟨items, { bank with withdrawn := fun _ => .resetValues }⟩
  money := money
  goldPaid := fun _ => 0
  repairPaid := fun _ => 0
  movedOut := fun _ _ => 0
  wronglyRefused := fun _ => false

def taken (d : BankDay) (key : UInt32) : Nat := d.goldPaid key + d.repairPaid key

/-- A request that the member has the right to, and that neither his limit nor the bank rules out. -/
def Due (d : BankDay) (m : Member) (amount : UInt64) (repair : Bool) : Prop :=
  d.world.bank.Entitled m repair ∧
    d.taken m.lowGuid + (min amount maxMoneyAmount).toNat ≤ d.world.bank.moneyPerDay m ∧
    min amount maxMoneyAmount ≤ d.world.bank.bankMoney

instance (d : BankDay) (m : Member) (amount : UInt64) (repair : Bool) :
    Decidable (d.Due m amount repair) :=
  inferInstanceAs (Decidable (_ ∧ _ ∧ _))

def pay (d : BankDay) (player : UInt64) (repair : Bool) (paid : Nat) (bank : GuildBank)
    (money : UInt64) : BankDay :=
  let key := guidLoPart player
  { d with
    world := { d.world with bank := bank }
    money := update d.money player money
    goldPaid := if repair then d.goldPaid
      else update d.goldPaid key (d.goldPaid key + paid)
    repairPaid := if repair then update d.repairPaid key (d.repairPaid key + paid)
      else d.repairPaid }

def withdraw (d : BankDay) (player amount : UInt64) (repair : Bool) : BankDay :=
  match d.world.bank.handleMemberWithdrawMoney player (d.money player) amount repair with
  | .ok (bank, money) => d.pay player repair (min amount maxMoneyAmount).toNat bank money
  | .error .remaining =>
    match d.world.bank.guild.getMember player with
    | some m =>
      if d.Due m amount repair then
        { d with wronglyRefused := update d.wronglyRefused (guidLoPart player) true }
      else d
    | none => d
  | .error _ => d

def move (d : BankDay) (player : UInt64) (now : Circumstances) (call : BankCall) : BankDay :=
  let key := guidLoPart player
  let (result, world) := call.run R now player d.world
  { d with
    world := world
    movedOut := update d.movedOut key fun tabId =>
      d.movedOut key tabId + (result.tabsLeft call.src call.dest).count tabId }

def step (d : BankDay) : BankEvent → BankDay
  | .withdrawMoney player amount repair => d.withdraw player amount repair
  | .moveItems player now call => d.move R player now call

/-- What the settings of his rank promise about a member. -/
structure Limited (m : Member) (d : BankDay) : Prop where
  gold : 0 < d.goldPaid m.lowGuid → d.world.bank.Entitled m false
  repair : 0 < d.repairPaid m.lowGuid → d.world.bank.Entitled m true
  total : d.taken m.lowGuid ≤ d.world.bank.moneyPerDay m
  served : d.wronglyRefused m.lowGuid = false
  slots : ∀ tabId, d.movedOut m.lowGuid tabId ≤ d.world.bank.slotsPerDay m tabId

/-- A request of a member that shows neither defect: gold that his rank has no right to is ruled out
otherwise, and within the limit the product does not wrap below what is asked for. -/
structure RequestMeets (m : Member) (d : BankDay) (player amount : UInt64) (repair : Bool) :
    Prop where
  gold : repair = false → d.world.bank.Entitled m true → 0 < (min amount maxMoneyAmount).toNat →
    min amount maxMoneyAmount ≤ d.world.bank.bankMoney →
    d.taken m.lowGuid + (min amount maxMoneyAmount).toNat ≤ d.world.bank.dayMoney m →
    (d.money player).toNat + (min amount maxMoneyAmount).toNat < maxMoneyAmount.toNat →
    d.world.bank.Entitled m false
  limit : d.Due m amount repair → 0 < (min amount maxMoneyAmount).toNat →
    (d.taken m.lowGuid + (min amount maxMoneyAmount).toNat : Int) ≤ d.world.bank.dayMoney m

/-- Every request of the member shows neither defect; moves need nothing. -/
def Meets (m : Member) (d : BankDay) : BankEvent → Prop
  | .withdrawMoney player amount repair =>
    guidLoPart player = m.lowGuid → RequestMeets m d player amount repair
  | .moveItems _ _ _ => True

end BankDay

structure GuildBank.SameSettings (b b' : GuildBank) : Prop where
  guild : b'.guild = b.guild
  rankBank : b'.rankBank = b.rankBank
  purchasedTabs : b'.purchasedTabs = b.purchasedTabs

namespace GuildBank

variable {b b' : GuildBank} {m : Member} {player : UInt64} {tabId : UInt8}

theorem SameSettings.refl (b : GuildBank) : b.SameSettings b := ⟨rfl, rfl, rfl⟩

theorem SameSettings.trans {b'' : GuildBank} (first : b.SameSettings b')
    (second : b'.SameSettings b'') : b.SameSettings b'' :=
  ⟨second.guild.trans first.guild, second.rankBank.trans first.rankBank,
    second.purchasedTabs.trans first.purchasedTabs⟩

section Same

variable (same : b.SameSettings b')

include same

theorem SameSettings.getRankBank (rankId : UInt8) : b'.getRankBank rankId = b.getRankBank rankId := by
  rw [GuildBank.getRankBank, GuildBank.getRankBank, same.guild, same.rankBank]

theorem SameSettings.dayMoney : b'.dayMoney m = b.dayMoney m := by
  rw [GuildBank.dayMoney, GuildBank.dayMoney, GuildBank.getRankBankMoneyPerDay,
    GuildBank.getRankBankMoneyPerDay, same.getRankBank]

theorem SameSettings.daySlots :
    b'.getRankBankTabSlotsPerDay m.rankId tabId = b.getRankBankTabSlotsPerDay m.rankId tabId := by
  rw [GuildBank.getRankBankTabSlotsPerDay, GuildBank.getRankBankTabSlotsPerDay, same.getRankBank,
    same.purchasedTabs]

theorem SameSettings.entitled {repair : Bool} : b'.Entitled m repair ↔ b.Entitled m repair := by
  rw [GuildBank.Entitled, GuildBank.Entitled, same.guild]

end Same

theorem entitled_repair_of_gold (entitled : b.Entitled m false) : b.Entitled m true := by
  intro none
  apply entitled
  have within : grRightWithdrawGold =
      (grRightWithdrawRepair ||| grRightWithdrawGold) &&& grRightWithdrawGold := by decide
  rw [if_pos rfl] at none
  rw [if_neg Bool.false_ne_true, within, ← UInt32.and_assoc, none]
  exact UInt32.zero_and

theorem dayMoney_le (b : GuildBank) {m : Member} (below : m.rankId ≠ grGuildmaster) :
    b.dayMoney m ≤ b.moneyPerDay m := by
  rw [dayMoney, moneyPerDay, getRankBankMoneyPerDay, if_neg below]
  rcases b.getRankBank m.rankId with _ | rankInfo
  · exact Int.le_refl _
  change toInt32 (toInt32 _ * 10000) ≤ ((_ * 10000 : Nat) : Int)
  have bounds := toInt32_bounds (toInt32 rankInfo.bankMoneyPerDay.toNat * 10000)
  by_cases positive : 0 ≤ toInt32 rankInfo.bankMoneyPerDay.toNat
  · have first := toInt32_le (n := rankInfo.bankMoneyPerDay.toNat) (by omega)
    have second := toInt32_le (n := toInt32 rankInfo.bankMoneyPerDay.toNat * 10000) (by omega)
    omega
  -- a negative `int32` was at least `2 ^ 31` as it was set
  have large : 2 ^ 31 ≤ rankInfo.bankMoneyPerDay.toNat := by
    by_contra small
    rw [toInt32_of_bounds (by omega) (by omega)] at positive
    omega
  omega

theorem daySlots_le (b : GuildBank) (m : Member) (tabId : UInt8) :
    b.getRankBankTabSlotsPerDay m.rankId tabId ≤ b.slotsPerDay m tabId := by
  rw [getRankBankTabSlotsPerDay, slotsPerDay]
  split
  · rcases b.getRankBank m.rankId with _ | rankInfo
    · exact Int.le_refl _
    change (if _ then _ else _) ≤ _
    split
    · exact toInt32_le (Int.natCast_nonneg _)
    · exact Int.natCast_nonneg _
  · exact Int.natCast_nonneg _

theorem daySlots_bounds (b : GuildBank) (m : Member) (tabId : UInt8) :
    -2 ^ 31 ≤ b.getRankBankTabSlotsPerDay m.rankId tabId ∧
      b.getRankBankTabSlotsPerDay m.rankId tabId < 2 ^ 31 := by
  rw [getRankBankTabSlotsPerDay]
  split
  · cases b.getRankBank m.rankId with
    | none =>
      change -2 ^ 31 ≤ (0 : Int) ∧ (0 : Int) < 2 ^ 31
      decide
    | some rankInfo =>
      change -2 ^ 31 ≤ (if _ then _ else _) ∧ (if _ then _ else _) < _
      split
      · exact toInt32_bounds _
      · decide
  · decide

theorem remainingMoney_toNat {taken : Nat} (below : m.rankId ≠ grGuildmaster)
    (counted : (b.withdrawn m.lowGuid).money.toNat = taken)
    (within : (taken : Int) ≤ max 0 (b.dayMoney m)) :
    (UInt64.ofInt (b.getMemberRemainingMoney m)).toNat =
      if b.Entitled m true then (b.dayMoney m - taken).toNat else 0 := by
  have bounds := toInt32_bounds (b.getRankBankMoneyPerDay m.rankId * gold)
  rw [← dayMoney] at bounds
  have isRank : ¬ m.isRank grGuildmaster = true := by
    rw [Member.isRank]
    simpa using below
  have counter : b.getBankWithdrawMoney m = taken := by
    rw [getBankWithdrawMoney, if_neg isRank, counted]
    exact toInt64_of_bounds (by omega) (by omega)
  rw [getMemberRemainingMoney, if_neg below]
  by_cases right : b.Entitled m true
  · have right' : b.guild.ranks.getRankRights m.rankId &&&
        (grRightWithdrawRepair ||| grRightWithdrawGold) ≠ 0 := right
    rw [if_pos right', if_pos right, counter, ← dayMoney, toInt64_of_bounds (by omega) (by omega)]
    dsimp only
    split
    · have ofInt := toNat_ofInt (n := b.dayMoney m - taken) (by omega) (by omega)
      omega
    · have nothing : (b.dayMoney m - taken).toNat = 0 := by omega
      rw [nothing]
      rfl
  · have right' : ¬ b.guild.ranks.getRankRights m.rankId &&&
        (grRightWithdrawRepair ||| grRightWithdrawGold) ≠ 0 := right
    rw [if_neg right', if_neg right]
    rfl

theorem takeBankMoney_withdrawn (amount : UInt64) :
    (b.takeBankMoney amount).withdrawn = b.withdrawn := by
  rw [takeBankMoney]
  split
  · rfl
  · rfl

theorem sameSettings_takeBankMoney (amount : UInt64) : b.SameSettings (b.takeBankMoney amount) := by
  rw [takeBankMoney]
  split
  · exact ⟨rfl, rfl, rfl⟩
  · exact ⟨rfl, rfl, rfl⟩

/-- What a request comes to, for a member: it is paid, refused for the limit or refused for
something else. -/
inductive Handled (b : GuildBank) (m : Member) (money amount : UInt64) (repair : Bool) :
    Except WithdrawRefusal (GuildBank × UInt64) → Prop
  | paid (money' : UInt64) :
      amount ≤ b.bankMoney → amount ≤ UInt64.ofInt (b.getMemberRemainingMoney m) →
      (repair = false → amount = 0 ∨ money.toNat + amount.toNat < maxMoneyAmount.toNat) →
      Handled b m money amount repair
        (.ok ((b.updateBankWithdrawMoney m.lowGuid amount).takeBankMoney amount, money'))
  | remaining :
      amount ≤ b.bankMoney → UInt64.ofInt (b.getMemberRemainingMoney m) < amount →
      Handled b m money amount repair (.error .remaining)
  | refused (refusal : WithdrawRefusal) : refusal ≠ .remaining →
      (b.bankMoney < amount ∨ amount ≤ UInt64.ofInt (b.getMemberRemainingMoney m) ∧
        repair = false ∧ maxMoneyAmount.toNat ≤ money.toNat + amount.toNat) →
      Handled b m money amount repair (.error refusal)

theorem handled_handleMemberWithdrawMoney (found : b.guild.getMember player = some m)
    (money amount : UInt64) (repair : Bool) :
    Handled b m money (min amount maxMoneyAmount) repair
      (b.handleMemberWithdrawMoney player money amount repair) := by
  have small : (min amount maxMoneyAmount).toNat ≤ maxMoneyAmount.toNat :=
    UInt64.le_iff_toNat_le.mp (Std.min_le_right)
  rw [handleMemberWithdrawMoney]
  generalize min amount maxMoneyAmount = amount at small
  split
  · rename_i poor
    exact .refused _ nofun (Or.inl poor)
  rename_i enough
  have enough := UInt64.not_lt.mp enough
  rw [found]
  dsimp only
  split
  · rename_i more
    exact .remaining enough more
  rename_i within
  have within := UInt64.not_lt.mp within
  cases repair with
  | true => exact .paid _ enough within nofun
  | false =>
    have added := modifyMoney_add money small
    rw [if_neg Bool.false_ne_true]
    cases modified : modifyMoney money (toInt64 amount.toNat) with
    | some money' =>
      rw [modified] at added
      refine .paid _ enough within fun _ => ?_
      split at added
      · rename_i may
        rcases may with zero | room
        · exact Or.inl (UInt64.toNat_inj.mp zero)
        · exact Or.inr room
      · cases added
    | none =>
      rw [modified] at added
      refine .refused _ nofun (Or.inr ⟨within, rfl, ?_⟩)
      split at added
      · cases added
      · rename_i mayNot
        exact Nat.le_of_not_lt (not_or.mp mayNot).2

variable {amount money' : UInt64}

theorem exists_of_paid {money : UInt64} {repair : Bool}
    (paid : b.handleMemberWithdrawMoney player money amount repair = .ok (b', money')) :
    ∃ member, b.guild.getMember player = some member ∧
      b' = (b.updateBankWithdrawMoney member.lowGuid (min amount maxMoneyAmount)).takeBankMoney
        (min amount maxMoneyAmount) := by
  cases found : b.guild.getMember player with
  | none =>
    rw [handleMemberWithdrawMoney, found] at paid
    split at paid
    · cases paid
    · cases paid
  | some member =>
    have handled := handled_handleMemberWithdrawMoney found money amount repair
    rw [paid] at handled
    cases handled with
    | paid _ _ _ _ => exact ⟨member, rfl, rfl⟩

theorem sameSettings_updateBankWithdrawMoney (key : UInt32) (amount : UInt64) :
    b.SameSettings ((b.updateBankWithdrawMoney key amount).takeBankMoney amount) := by
  have counted : b.SameSettings (b.updateBankWithdrawMoney key amount) := ⟨rfl, rfl, rfl⟩
  exact counted.trans (sameSettings_takeBankMoney _)

theorem withdrawn_handleMemberWithdrawMoney {key : UInt32} (other : guidLoPart player ≠ key)
    {money : UInt64} {repair : Bool}
    (paid : b.handleMemberWithdrawMoney player money amount repair = .ok (b', money')) :
    b'.withdrawn key = b.withdrawn key := by
  obtain ⟨member, found, rfl⟩ := exists_of_paid paid
  rw [takeBankMoney_withdrawn]
  refine update_of_ne (Ne.symm ?_) _ _
  rw [(Guild.getMember_eq_some_iff.mp found).2]
  exact other

theorem sameSettings_handleMemberWithdrawMoney {money : UInt64} {repair : Bool}
    (paid : b.handleMemberWithdrawMoney player money amount repair = .ok (b', money')) :
    b.SameSettings b' := by
  obtain ⟨member, -, rfl⟩ := exists_of_paid paid
  exact sameSettings_updateBankWithdrawMoney _ _

/-! ### Moves -/

def leaveTabs (b : GuildBank) (player : UInt64) (tabs : List UInt8) : GuildBank :=
  tabs.foldl (fun b tabId => b.updateMemberWithdrawSlots player tabId) b

theorem sameSettings_updateMemberWithdrawSlots :
    b.SameSettings (b.updateMemberWithdrawSlots player tabId) := by
  rw [updateMemberWithdrawSlots]
  split
  · split
    · exact ⟨rfl, rfl, rfl⟩
    · exact .refl b
  · exact .refl b

theorem withdrawn_updateMemberWithdrawSlots (b : GuildBank) (player : UInt64) (tabId : UInt8)
    (key : UInt32) :
    ((b.updateMemberWithdrawSlots player tabId).withdrawn key).money = (b.withdrawn key).money ∧
      (guidLoPart player ≠ key →
        (b.updateMemberWithdrawSlots player tabId).withdrawn key = b.withdrawn key) := by
  rw [updateMemberWithdrawSlots]
  rcases found : b.guild.getMember player with _ | member
  · exact ⟨rfl, fun _ => rfl⟩
  dsimp only
  split
  · rw [(Guild.getMember_eq_some_iff.mp found).2]
    constructor
    · by_cases own : key = guidLoPart player
      · rw [own, updateBankWithdrawValue]
        dsimp only
        rw [update_self]
      · rw [updateBankWithdrawValue]
        dsimp only
        rw [update_of_ne own]
    · intro other
      exact update_of_ne (Ne.symm other) _ _
  · exact ⟨rfl, fun _ => rfl⟩

theorem sameSettings_leaveTabs {tabs : List UInt8} : b.SameSettings (b.leaveTabs player tabs) := by
  induction tabs generalizing b with
  | nil => exact .refl b
  | cons tab rest ih => exact sameSettings_updateMemberWithdrawSlots.trans ih

theorem withdrawn_leaveTabs (b : GuildBank) (player : UInt64) (tabs : List UInt8) (key : UInt32) :
    ((b.leaveTabs player tabs).withdrawn key).money = (b.withdrawn key).money ∧
      (guidLoPart player ≠ key → (b.leaveTabs player tabs).withdrawn key = b.withdrawn key) := by
  induction tabs generalizing b with
  | nil => exact ⟨rfl, fun _ => rfl⟩
  | cons tab rest ih =>
    have first := withdrawn_updateMemberWithdrawSlots b player tab key
    have later := ih (b.updateMemberWithdrawSlots player tab)
    exact ⟨later.1.trans first.1, fun other => (later.2 other).trans (first.2 other)⟩

/-- **Counting what leaves.** Where a member is below the limits of the tabs that his items leave,
each of these counts one more. -/
theorem items_leaveTabs {tabs : List UInt8} (found : b.guild.getMember player = some m)
    (below : m.rankId ≠ grGuildmaster) (distinct : tabs.Nodup)
    (left : ∀ tab ∈ tabs, 0 ≤ (b.withdrawn m.lowGuid).items tab ∧
      (b.withdrawn m.lowGuid).items tab < b.getRankBankTabSlotsPerDay m.rankId tab) (tab : UInt8) :
    ((b.leaveTabs player tabs).withdrawn m.lowGuid).items tab =
      (b.withdrawn m.lowGuid).items tab + tabs.count tab := by
  induction tabs generalizing b with
  | nil => exact (Int.add_zero _).symm
  | cons first rest ih =>
    have isRank : ¬ m.isRank grGuildmaster = true := by
      rw [Member.isRank]
      simpa using below
    obtain ⟨positive, less⟩ := left first mem_cons_self
    have bounds := daySlots_bounds b m first
    have updated : b.updateMemberWithdrawSlots player first =
        b.updateBankWithdrawValue m.lowGuid first := by
      rw [updateMemberWithdrawSlots, found]
      dsimp only
      rw [getBankWithdrawValue, if_neg isRank, if_pos ⟨below, less⟩]
    have counted : ∀ tab, ((b.updateBankWithdrawValue m.lowGuid first).withdrawn m.lowGuid).items
        tab = (b.withdrawn m.lowGuid).items tab + if tab = first then 1 else 0 := by
      intro tab
      rw [updateBankWithdrawValue]
      dsimp only
      rw [update_self]
      dsimp only
      by_cases same : tab = first
      · rw [same, update_self, if_pos rfl, toInt32_of_bounds (by omega) (by omega)]
      · rw [update_of_ne same, if_neg same, Int.add_zero]
    obtain ⟨notLater, distinct⟩ := List.nodup_cons.mp distinct
    have same : b.SameSettings (b.updateMemberWithdrawSlots player first) :=
      sameSettings_updateMemberWithdrawSlots
    rw [leaveTabs, foldl_cons]
    change ((leaveTabs (b.updateMemberWithdrawSlots player first) player rest).withdrawn
      m.lowGuid).items tab = _
    rw [ih (by rw [same.guild]; exact found) distinct, updated, counted, count_cons]
    · by_cases here : tab = first
      · rw [if_pos here, here, beq_self_eq_true, if_pos rfl]
        omega
      · rw [if_neg here, if_neg (by simpa using Ne.symm here)]
        omega
    · intro other member
      have differ : other ≠ first := by
        rintro rfl
        exact notLater member
      rw [same.daySlots, updated, counted, if_neg differ, Int.add_zero]
      exact left other (mem_cons_of_mem _ member)

end GuildBank

namespace BankWorld

variable {R : ItemRules} {now : Circumstances} {player : UInt64} {w w' : BankWorld}
  {pSrc pDest : MoveItemData} {pItem pSrcItem : Item} {splitedAmount : Nat}

theorem bank_removeItem (data pOther : MoveItemData) (item : Item) :
    (w.removeItem R player data pOther item splitedAmount).bank =
      w.bank.leaveTabs player (data.leaves pOther) := by
  unfold removeItem
  cases data with
  | player container slotId => rfl
  | bank container slotId =>
    cases pOther with
    | player _ _ => rfl
    | bank other _ =>
      change (if (true && (!true || decide (other ≠ container))) = true then
        w.bank.updateMemberWithdrawSlots player container else w.bank) =
        w.bank.leaveTabs player (if (true && decide (other = container)) = true then []
          else [container])
      by_cases same : other = container
      · simp only [same, ne_eq, not_true_eq_false, decide_true, decide_false]
        rfl
      · simp only [same, ne_eq, not_false_eq_true, decide_true, decide_false]
        rfl

theorem bank_doItemsMove {pDestItem : Option Item}
    (done : w.doItemsMove R player pSrc pDest pItem pSrcItem pDestItem splitedAmount = some w') :
    w'.bank = w.bank.leaveTabs player (pSrc.leaves pDest ++
      if pDestItem.isSome then pDest.leaves pSrc else []) := by
  rw [doItemsMove] at done
  split at done
  · cases pDestItem with
    | none =>
      cases done
      rw [bank_storeItem, bank_removeItem, Option.isSome_none, if_neg Bool.false_ne_true,
        append_nil]
    | some pDestItem =>
      dsimp only at done
      split at done
      · cases done
        rw [bank_storeItem, bank_storeItem, bank_removeItem, bank_removeItem, Option.isSome_some,
          if_pos rfl, GuildBank.leaveTabs, GuildBank.leaveTabs, GuildBank.leaveTabs,
          foldl_append]
      · cases done
  · cases done

theorem remaining_of_hasWithdrawRights {data pOther : MoveItemData}
    (rights : w.hasWithdrawRights player data pOther = true) {tab : UInt8}
    (member : tab ∈ data.leaves pOther) :
    ∃ m, w.bank.guild.getMember player = some m ∧ w.bank.getMemberRemainingSlots m tab ≠ 0 := by
  cases data with
  | player container slotId => cases member
  | bank container slotId =>
    rw [hasWithdrawRights] at rights
    rw [MoveItemData.leaves] at member
    split at rights
    · rename_i same
      rw [if_pos same] at member
      cases member
    rename_i other
    rw [if_neg other] at member
    rw [List.mem_singleton.mp member]
    split at rights
    · rename_i m found
      exact ⟨m, found, of_decide_eq_true rights⟩
    · cases rights

theorem nodup_leaves (pSrc pDest : MoveItemData) :
    (pSrc.leaves pDest ++ pDest.leaves pSrc).Nodup := by
  cases pSrc with
  | player _ _ =>
    cases pDest with
    | player _ _ => exact nodup_nil
    | bank _ _ => exact nodup_singleton _
  | bank container _ =>
    cases pDest with
    | player _ _ => exact nodup_singleton _
    | bank other _ =>
      change ((if (true && decide (other = container)) = true then [] else [container]) ++
        if (true && decide (container = other)) = true then [] else [other]).Nodup
      by_cases same : other = container
      · simp [same]
      · simp [same, Ne.symm same]

/-- What a move does to the bank: the items it moved have left their tabs, and of each of these the
member had something left. -/
structure Leaves (w : BankWorld) (player : UInt64) (tabs : List UInt8) (w' : BankWorld) : Prop where
  bank : w'.bank = w.bank.leaveTabs player tabs
  distinct : tabs.Nodup
  remaining : ∀ tab ∈ tabs, ∃ m, w.bank.guild.getMember player = some m ∧
    w.bank.getMemberRemainingSlots m tab ≠ 0

theorem leaves_rejected (same : w'.bank = w.bank) : w.Leaves player [] w' where
  bank := same
  distinct := nodup_nil
  remaining := fun _ member => nomatch member

theorem leaves_moveItems {amount : Nat} :
    w.Leaves player ((w.moveItems R now player pSrc pDest amount).1.tabsLeft pSrc pDest)
      (w.moveItems R now player pSrc pDest amount).2 := by
  have both := nodup_leaves pSrc pDest
  rw [moveItems]
  rcases w.initItem R now player pSrc with _ | pItem
  · exact leaves_rejected rfl
  dsimp only
  rcases checkItem pItem amount with _ | part
  · exact leaves_rejected rfl
  dsimp only
  split
  · exact leaves_rejected rfl
  split
  · exact leaves_rejected rfl
  rename_i withdraw
  have withdraw : w.hasWithdrawRights player pSrc pDest = true := by simpa using withdraw
  have moved : ∀ {w₁ w' : BankWorld} {pSrcItem : Item} {part : Nat}, w₁.bank = w.bank →
      w₁.doItemsMove R player pSrc pDest pItem pSrcItem none part = some w' →
      w.Leaves player (pSrc.leaves pDest) w' := by
    intro w₁ w' pSrcItem part same done
    refine ⟨?_, (List.nodup_append.mp both).1, fun tab member =>
      remaining_of_hasWithdrawRights withdraw member⟩
    rw [bank_doItemsMove done, same, Option.isSome_none, if_neg Bool.false_ne_true, append_nil]
  split
  · split
    · exact leaves_rejected rfl
    rename_i pClonedItem w₁ cloned
    have same : w₁.bank = w.bank := by
      rw [cloneItem] at cloned
      split at cloned
      · cases cloned
      · cases cloned
        rfl
    split
    · exact leaves_rejected same
    · rename_i w' done
      exact moved same done
  · split
    · rename_i w' done
      exact moved rfl done
    split
    · exact leaves_rejected rfl
    rename_i pDestItem _
    split
    · exact leaves_rejected rfl
    split
    · exact leaves_rejected rfl
    rename_i withdrawDest
    have withdrawDest : w.hasWithdrawRights player pDest pSrc = true := by
      simpa using withdrawDest
    split
    · exact leaves_rejected rfl
    rename_i w' done
    refine ⟨?_, both, fun tab member => ?_⟩
    · rw [bank_doItemsMove done, Option.isSome_some, if_pos rfl]
      rfl
    · rcases List.mem_append.mp member with src | dest
      · exact remaining_of_hasWithdrawRights withdraw src
      · exact remaining_of_hasWithdrawRights withdrawDest dest

theorem leaves_run (R : ItemRules) (now : Circumstances) (player : UInt64) (w : BankWorld)
    (call : BankCall) :
    w.Leaves player ((call.run R now player w).1.tabsLeft call.src call.dest)
      (call.run R now player w).2 := by
  cases call with
  | swapItems tabId slotId destTabId destSlotId splitedAmount =>
    rw [BankCall.run, swapItems]
    split
    · exact leaves_rejected rfl
    split
    · exact leaves_rejected rfl
    · exact leaves_moveItems
  | swapItemsWithInventory toChar tabId slotId playerBag playerSlotId splitedAmount =>
    rw [BankCall.run, swapItemsWithInventory]
    split
    · exact leaves_rejected rfl
    · cases toChar with
      | true => exact leaves_moveItems
      | false => exact leaves_moveItems

end BankWorld

namespace BankDay

variable {R : ItemRules} {m : Member} {d : BankDay}

/-- The counters of the code agree with the account that is kept of a member, and they are within
what the code allows. -/
structure Reckoned (m : Member) (d : BankDay) : Prop where
  member : m ∈ d.world.bank.guild.members
  gold : 0 < d.goldPaid m.lowGuid → d.world.bank.Entitled m false
  repair : 0 < d.repairPaid m.lowGuid → d.world.bank.Entitled m true
  served : d.wronglyRefused m.lowGuid = false
  money : (d.world.bank.withdrawn m.lowGuid).money.toNat = d.taken m.lowGuid
  within : (d.taken m.lowGuid : Int) ≤ max 0 (d.world.bank.dayMoney m)
  items : ∀ tabId, (d.world.bank.withdrawn m.lowGuid).items tabId = d.movedOut m.lowGuid tabId
  slots : ∀ tabId, (d.movedOut m.lowGuid tabId : Int) ≤
    max 0 (d.world.bank.getRankBankTabSlotsPerDay m.rankId tabId)

theorem reckoned_start {bank : GuildBank} (items : ItemWorld) (money : UInt64 → UInt64)
    (member : m ∈ bank.guild.members) : Reckoned m (start items bank money) where
  member := member
  gold := fun positive => absurd positive (Nat.lt_irrefl 0)
  repair := fun positive => absurd positive (Nat.lt_irrefl 0)
  served := rfl
  money := rfl
  within := Int.le_max_left _ _
  items := fun _ => rfl
  slots := fun _ => Int.le_max_left _ _

theorem Reckoned.limited (reckoned : Reckoned m d) (below : m.rankId ≠ grGuildmaster) :
    Limited m d where
  gold := reckoned.gold
  repair := reckoned.repair
  total := by
    have allowed := d.world.bank.dayMoney_le below
    have within := reckoned.within
    omega
  served := reckoned.served
  slots := by
    intro tabId
    have allowed := d.world.bank.daySlots_le m tabId
    have within := reckoned.slots tabId
    omega

theorem Reckoned.frame {d' : BankDay} (reckoned : Reckoned m d)
    (same : d.world.bank.SameSettings d'.world.bank)
    (withdrawn : d'.world.bank.withdrawn m.lowGuid = d.world.bank.withdrawn m.lowGuid)
    (gold : d'.goldPaid m.lowGuid = d.goldPaid m.lowGuid)
    (repair : d'.repairPaid m.lowGuid = d.repairPaid m.lowGuid)
    (moved : d'.movedOut m.lowGuid = d.movedOut m.lowGuid)
    (served : d'.wronglyRefused m.lowGuid = d.wronglyRefused m.lowGuid) : Reckoned m d' where
  member := by
    rw [same.guild]
    exact reckoned.member
  gold := by
    rw [gold, same.entitled]
    exact reckoned.gold
  repair := by
    rw [repair, same.entitled]
    exact reckoned.repair
  served := served.trans reckoned.served
  money := by
    rw [withdrawn, taken, gold, repair]
    exact reckoned.money
  within := by
    rw [taken, gold, repair, same.dayMoney]
    exact reckoned.within
  items := by
    rw [withdrawn, moved]
    exact reckoned.items
  slots := by
    intro tabId
    rw [moved, same.daySlots]
    exact reckoned.slots tabId

variable {player : UInt64}

theorem getMember_of_key (reckoned : Reckoned m d) (key : guidLoPart player = m.lowGuid) :
    d.world.bank.guild.getMember player = some m :=
  Guild.getMember_eq_some_iff.mpr ⟨reckoned.member, key.symm⟩

theorem Reckoned.move {now : Circumstances} {call : BankCall}
    (reckoned : Reckoned m d) (below : m.rankId ≠ grGuildmaster) :
    Reckoned m (d.move R player now call) := by
  have leaves := BankWorld.leaves_run R now player d.world call
  rw [BankDay.move]
  generalize call.run R now player d.world = r at leaves
  obtain ⟨result, w'⟩ := r
  dsimp only at leaves ⊢
  have same : d.world.bank.SameSettings w'.bank := by
    rw [leaves.bank]
    exact sameSettings_leaveTabs
  have withdrawn := withdrawn_leaveTabs d.world.bank player
    (result.tabsLeft call.src call.dest) m.lowGuid
  rw [← leaves.bank] at withdrawn
  by_cases key : guidLoPart player = m.lowGuid
  · have found := getMember_of_key reckoned key
    have isRank : ¬ m.isRank grGuildmaster = true := by
      rw [Member.isRank]
      simpa using below
    have left : ∀ tab ∈ result.tabsLeft call.src call.dest,
        0 ≤ (d.world.bank.withdrawn m.lowGuid).items tab ∧
          (d.world.bank.withdrawn m.lowGuid).items tab <
            d.world.bank.getRankBankTabSlotsPerDay m.rankId tab := by
      intro tab member
      obtain ⟨m', found', remaining⟩ := leaves.remaining tab member
      obtain rfl : m = m' := Option.some.inj (found.symm.trans found')
      have items := reckoned.items tab
      have slots := reckoned.slots tab
      have bounds := daySlots_bounds d.world.bank m tab
      refine ⟨by omega, ?_⟩
      rw [GuildBank.getMemberRemainingSlots, if_neg below] at remaining
      split at remaining
      · rw [GuildBank.getBankWithdrawValue, if_neg isRank,
          toInt32_of_bounds (by omega) (by omega)] at remaining
        dsimp only at remaining
        split at remaining
        · omega
        · exact absurd rfl remaining
      · exact absurd rfl remaining
    have items := items_leaveTabs found below leaves.distinct left
    rw [← leaves.bank] at items
    have moved : ∀ tab, update d.movedOut (guidLoPart player) (fun tabId =>
        d.movedOut (guidLoPart player) tabId + (result.tabsLeft call.src call.dest).count tabId)
        m.lowGuid tab =
        d.movedOut m.lowGuid tab + (result.tabsLeft call.src call.dest).count tab := by
      intro tab
      rw [key, update_self]
    refine ⟨?_, ?_, ?_, reckoned.served, ?_, ?_, ?_, ?_⟩
    · rw [same.guild]
      exact reckoned.member
    · rw [same.entitled]
      exact reckoned.gold
    · rw [same.entitled]
      exact reckoned.repair
    · rw [withdrawn.1]
      exact reckoned.money
    · rw [same.dayMoney]
      exact reckoned.within
    · intro tab
      dsimp only
      rw [items, moved, reckoned.items, Int.natCast_add]
    · intro tab
      dsimp only
      rw [moved, same.daySlots]
      have counted := reckoned.items tab
      have slots := reckoned.slots tab
      by_cases member : tab ∈ result.tabsLeft call.src call.dest
      · have once := List.nodup_iff_count_le_one.mp leaves.distinct tab
        have less := (left tab member).2
        omega
      · rw [count_eq_zero_of_not_mem member]
        exact slots
  · refine reckoned.frame same (withdrawn.2 key) rfl rfl ?_ rfl
    exact update_of_ne (Ne.symm key) _ _

variable {amount : UInt64}

theorem Reckoned.paid_within (reckoned : Reckoned m d) (below : m.rankId ≠ grGuildmaster) :
    amount ≤ UInt64.ofInt (d.world.bank.getMemberRemainingMoney m) ↔
      amount.toNat = 0 ∨ d.world.bank.Entitled m true ∧
        (d.taken m.lowGuid + amount.toNat : Int) ≤ d.world.bank.dayMoney m := by
  rw [UInt64.le_iff_toNat_le, remainingMoney_toNat below reckoned.money reckoned.within]
  split
  · rename_i entitled
    constructor
    · intro within
      by_cases zero : amount.toNat = 0
      · exact Or.inl zero
      · exact Or.inr ⟨entitled, by omega⟩
    · rintro (zero | ⟨-, within⟩)
      · omega
      · omega
  · rename_i notEntitled
    constructor
    · intro nothing
      exact Or.inl (Nat.le_zero.mp nothing)
    · rintro (zero | ⟨entitled, -⟩)
      · exact Nat.le_of_eq zero
      · exact absurd entitled notEntitled

section Pay

variable {player : UInt64} {paid : Nat} {bank : GuildBank} {money : UInt64}

theorem goldPaid_pay (repair : Bool) :
    (d.pay player repair paid bank money).goldPaid (guidLoPart player) =
      d.goldPaid (guidLoPart player) + if repair then 0 else paid := by
  cases repair with
  | true => rfl
  | false => exact update_self _ _ _

theorem repairPaid_pay (repair : Bool) :
    (d.pay player repair paid bank money).repairPaid (guidLoPart player) =
      d.repairPaid (guidLoPart player) + if repair then paid else 0 := by
  cases repair with
  | true => exact update_self _ _ _
  | false => rfl

theorem taken_pay (repair : Bool) :
    (d.pay player repair paid bank money).taken (guidLoPart player) =
      d.taken (guidLoPart player) + paid := by
  rw [taken, taken, goldPaid_pay, repairPaid_pay]
  cases repair with
  | true =>
    rw [if_pos rfl, if_pos rfl]
    omega
  | false =>
    rw [if_neg Bool.false_ne_true, if_neg Bool.false_ne_true]
    omega

theorem paid_pay_of_ne {key : UInt32} (other : guidLoPart player ≠ key) (repair : Bool) :
    (d.pay player repair paid bank money).goldPaid key = d.goldPaid key ∧
      (d.pay player repair paid bank money).repairPaid key = d.repairPaid key := by
  cases repair with
  | true => exact ⟨rfl, update_of_ne (Ne.symm other) _ _⟩
  | false => exact ⟨update_of_ne (Ne.symm other) _ _, rfl⟩

end Pay

variable {repair : Bool}

theorem Reckoned.pay {money : UInt64} (reckoned : Reckoned m d)
    (below : m.rankId ≠ grGuildmaster) (key : guidLoPart player = m.lowGuid)
    (within : amount ≤ UInt64.ofInt (d.world.bank.getMemberRemainingMoney m))
    (right : 0 < amount.toNat → d.world.bank.Entitled m repair) :
    Reckoned m (d.pay player repair amount.toNat
      ((d.world.bank.updateBankWithdrawMoney m.lowGuid amount).takeBankMoney amount) money) := by
  have same : d.world.bank.SameSettings
      ((d.world.bank.updateBankWithdrawMoney m.lowGuid amount).takeBankMoney amount) :=
    sameSettings_updateBankWithdrawMoney _ _
  have withdrawn : ((d.world.bank.updateBankWithdrawMoney m.lowGuid amount).takeBankMoney
      amount).withdrawn m.lowGuid = { d.world.bank.withdrawn m.lowGuid with
        money := (d.world.bank.withdrawn m.lowGuid).money + amount } := by
    rw [takeBankMoney_withdrawn, GuildBank.updateBankWithdrawMoney]
    exact update_self _ _ _
  have bounds := toInt32_bounds (d.world.bank.getRankBankMoneyPerDay m.rankId * Sky548.gold)
  rw [← GuildBank.dayMoney] at bounds
  have allowed := (reckoned.paid_within below).mp within
  have before := reckoned.within
  have counter := reckoned.money
  refine ⟨?_, fun positive => ?_, fun positive => ?_, reckoned.served, ?_, ?_, ?_, fun tabId => ?_⟩
  · change m ∈ (GuildBank.takeBankMoney _ _).guild.members
    rw [same.guild]
    exact reckoned.member
  · rw [← key, goldPaid_pay, key] at positive
    refine same.entitled.mpr ?_
    cases repair with
    | true => exact reckoned.gold positive
    | false =>
      by_cases zero : amount.toNat = 0
      · rw [zero] at positive
        exact reckoned.gold positive
      · exact right (Nat.pos_of_ne_zero zero)
  · rw [← key, repairPaid_pay, key] at positive
    refine same.entitled.mpr ?_
    rcases repair with _ | _
    · exact reckoned.repair positive
    by_cases zero : amount.toNat = 0
    · rw [zero] at positive
      exact reckoned.repair positive
    · exact right (Nat.pos_of_ne_zero zero)
  · rw [← key, taken_pay, key]
    change ((GuildBank.takeBankMoney _ _).withdrawn m.lowGuid).money.toNat = _
    rw [withdrawn]
    rw [UInt64.toNat_add, counter]
    omega
  · rw [← key, taken_pay, key]
    change _ ≤ max 0 (GuildBank.dayMoney (GuildBank.takeBankMoney _ _) m)
    rw [same.dayMoney]
    omega
  · change ∀ tabId, ((GuildBank.takeBankMoney _ _).withdrawn m.lowGuid).items tabId = _
    rw [withdrawn]
    exact reckoned.items
  · change _ ≤ max 0 (GuildBank.getRankBankTabSlotsPerDay (GuildBank.takeBankMoney _ _) _ _)
    rw [same.daySlots]
    exact reckoned.slots tabId

theorem Reckoned.withdraw (reckoned : Reckoned m d) (below : m.rankId ≠ grGuildmaster)
    (meets : guidLoPart player = m.lowGuid → RequestMeets m d player amount repair) :
    Reckoned m (d.withdraw player amount repair) := by
  by_cases key : guidLoPart player = m.lowGuid
  · have meets := meets key
    have found := getMember_of_key reckoned key
    have handled := handled_handleMemberWithdrawMoney found (d.money player) amount repair
    rw [BankDay.withdraw]
    generalize d.world.bank.handleMemberWithdrawMoney player (d.money player) amount repair = r
      at handled
    cases handled with
    | paid money' enough within room =>
      refine reckoned.pay below key within fun positive => ?_
      have allowed := (reckoned.paid_within below).mp within
      obtain ⟨entitled, limit⟩ := allowed.resolve_left (Nat.pos_iff_ne_zero.mp positive)
      cases repair with
      | true => exact entitled
      | false =>
        refine meets.gold rfl entitled positive enough limit ?_
        refine (room rfl).resolve_left fun none => ?_
        rw [none] at positive
        exact absurd positive (Nat.lt_irrefl 0)
    | remaining enough more =>
      rw [found]
      dsimp only
      split
      · rename_i due
        have notWithin := mt (reckoned.paid_within below).mpr (UInt64.not_le.mpr more)
        rw [not_or] at notWithin
        have limit := meets.limit due (Nat.pos_of_ne_zero notWithin.1)
        have entitled : d.world.bank.Entitled m true := by
          cases repair with
          | true => exact due.1
          | false => exact entitled_repair_of_gold due.1
        exact absurd ⟨entitled, limit⟩ notWithin.2
      · exact reckoned
    | refused refusal other because =>
      cases refusal with
      | remaining => exact absurd rfl other
      | _ => exact reckoned
  · rw [BankDay.withdraw]
    cases handled : d.world.bank.handleMemberWithdrawMoney player (d.money player) amount repair with
    | ok paid =>
      obtain ⟨bank, money⟩ := paid
      exact reckoned.frame (sameSettings_handleMemberWithdrawMoney handled)
        (withdrawn_handleMemberWithdrawMoney key handled) (paid_pay_of_ne key repair).1
        (paid_pay_of_ne key repair).2 rfl rfl
    | error refusal =>
      cases refusal with
      | remaining =>
        dsimp only
        split
        · rename_i m' found
          split
          · refine reckoned.frame (.refl _) rfl rfl rfl rfl ?_
            exact update_of_ne (Ne.symm key) _ _
          · exact reckoned
        · exact reckoned
      | _ => exact reckoned

theorem sameSettings_withdraw :
    d.world.bank.SameSettings (d.withdraw player amount repair).world.bank := by
  rw [BankDay.withdraw]
  cases handled : d.world.bank.handleMemberWithdrawMoney player (d.money player) amount repair with
  | ok paid =>
    exact sameSettings_handleMemberWithdrawMoney handled
  | error refusal =>
    cases refusal with
    | remaining =>
      dsimp only
      split
      · split
        · exact .refl _
        · exact .refl _
      · exact .refl _
    | _ => exact .refl _

theorem not_limited_withdraw (reckoned : Reckoned m d)
    (below : m.rankId ≠ grGuildmaster) (key : guidLoPart player = m.lowGuid)
    (shows : ¬ RequestMeets m d player amount repair) :
    ¬ Limited m (d.withdraw player amount repair) := by
  intro limited
  have same : d.world.bank.SameSettings (d.withdraw player amount repair).world.bank :=
    sameSettings_withdraw
  have found := getMember_of_key reckoned key
  have handled := handled_handleMemberWithdrawMoney found (d.money player) amount repair
  have gold := limited.gold
  have served := limited.served
  rw [same.entitled] at gold
  rw [BankDay.withdraw] at gold served
  generalize d.world.bank.handleMemberWithdrawMoney player (d.money player) amount repair = r
    at handled gold served
  refine shows ⟨fun notRepair entitled positive enough limit room => ?_, fun due positive => ?_⟩
  · have within := (reckoned.paid_within below).mpr (Or.inr ⟨entitled, limit⟩)
    cases handled with
    | paid money' _ _ _ =>
      apply gold
      rw [← key]
      rw [goldPaid_pay, notRepair, if_neg Bool.false_ne_true]
      exact Nat.lt_of_lt_of_le positive (Nat.le_add_left _ _)
    | remaining _ more => exact absurd within (UInt64.not_le.mpr more)
    | refused refusal _ because =>
      rcases because with poor | ⟨-, -, tooMuch⟩
      · exact absurd enough (UInt64.not_le.mpr poor)
      · exact absurd room (Nat.not_lt.mpr tooMuch)
  · cases handled with
    | paid money' _ within _ =>
      exact (((reckoned.paid_within below).mp within).resolve_left
        (Nat.pos_iff_ne_zero.mp positive)).2
    | remaining _ more =>
      rw [found] at served
      dsimp only at served
      rw [if_pos due, ← key] at served
      dsimp only at served
      rw [update_self] at served
      cases served
    | refused refusal _ because =>
      rcases because with poor | ⟨within, -, -⟩
      · exact absurd due.2.2 (UInt64.not_le.mpr poor)
      · exact (((reckoned.paid_within below).mp within).resolve_left
          (Nat.pos_iff_ne_zero.mp positive)).2

/-- **The daily limits.** A rank's settings are kept to for a member, whoever asks for what, exactly
when every request of that member shows neither defect. -/
theorem throughout_limited_iff (R : ItemRules) (items : ItemWorld) (bank : GuildBank)
    (money : UInt64 → UInt64) (m : Member) (member : m ∈ bank.guild.members)
    (below : m.rankId ≠ grGuildmaster) (events : List BankEvent) :
    Machine.Throughout (step R) (Limited m) (start items bank money) events ↔
      Machine.EachStep (step R) (Meets m) (start items bank money) events := by
  refine Machine.throughout_iff_eachStep (I := Reckoned m) (reckoned_start items money member)
    (fun d reckoned => reckoned.limited below) (fun d event reckoned meets => ?_)
    fun d event reckoned shows => ?_
  · cases event with
    | withdrawMoney player amount repair => exact reckoned.withdraw below meets
    | moveItems player now call => exact reckoned.move below
  cases event with
  | withdrawMoney player amount repair =>
    obtain ⟨key, shows⟩ := Classical.not_imp.mp shows
    exact not_limited_withdraw reckoned below key shows
  | moveItems player now call => exact absurd True.intro shows

def jaina : Member := ⟨8, "Jaina", 1, 0⟩

def jainasBank (rights moneyPerDay : UInt32) : GuildBank where
  guild :=
    { id := ⟨1, guildId_one⟩
      leaderGuid := 7
      level := 1
      ranks := ⟨[⟨0, "", grRightAll⟩, ⟨1, "", rights⟩], Nat.le_refl 2, Nat.le_add_right 2 8⟩
      members := ⟨[⟨7, "Arthas", 0, 0⟩, jaina], by decide⟩ }
  purchasedTabs := 0
  bankMoney := 50000000
  rankBank := fun _ => ⟨moneyPerDay, fun _ => ⟨0, 0⟩⟩
  withdrawn := fun _ => .resetValues

def jainasDay (rights moneyPerDay : UInt32) : BankDay :=
  start ⟨.empty, 1⟩ (jainasBank rights moneyPerDay) fun _ => 0

theorem throughout_limited_iff_jaina :
    Machine.Throughout (step (.tradeGoods 0)) (Limited jaina) (jainasDay grRightWithdrawGold 10)
        [.withdrawMoney 8 70000 false, .withdrawMoney 8 40000 false] ↔
      Machine.EachStep (step (.tradeGoods 0)) (Meets jaina) (jainasDay grRightWithdrawGold 10)
        [.withdrawMoney 8 70000 false, .withdrawMoney 8 40000 false] :=
  throughout_limited_iff _ _ _ _ jaina (by decide) (by decide) _

/-- Who may only withdraw for repairs gets gold, and who may withdraw 300000 gold a day gets none. -/
theorem not_limited_of_one_right_and_int32 :
    ¬ Machine.Throughout (step (.tradeGoods 0)) (Limited jaina) (jainasDay grRightWithdrawRepair 10)
        [.withdrawMoney 8 10000 false] ∧
      ¬ Machine.Throughout (step (.tradeGoods 0)) (Limited jaina)
        (jainasDay grRightWithdrawGold 300000) [.withdrawMoney 8 10000 false] := by
  constructor
  · intro holds
    have gold := holds.2.gold
    revert gold
    decide
  · intro holds
    have served := holds.2.served
    revert served
    decide

end BankDay

end Sky548
