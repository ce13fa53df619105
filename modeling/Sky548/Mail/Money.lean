import Sky548.Ledger
import Sky548.Mail.Books
import Sky548.Mail.Custody

/-!
# The money of mails

What the players own and what their mails hold changes by the postage alone, as long as every amount
fits where it is written: the sum that the sender has to own into 64 bits, the money of a mail into
the 32 bits of its row when it is read from there, a COD into an `int32` when it is paid.
-/

namespace Sky548

open List MailWorld
open Function (update update_eq_self update_eq_self_iff update_of_ne update_self)

namespace MailMoney

def mailed (w : MailWorld) (p : UInt32) : Nat := ((entries w p).map Entry.money).sum

def wealth (L : MailRealm) (w : MailWorld) : Nat :=
  Ledger.total L.players fun p => (w.money p).toNat + mailed w p

/-- The world, and what the receiver of a mail still owes: the COD that its sender set. -/
structure Books where
  world : MailWorld
  owed : UInt32 → Nat

def thirtyEach (itemCount : Nat) : Nat := if itemCount = 0 then 30 else 30 * itemCount

inductive Event
  | send (p : UInt32) (now : MailCircumstances) (packet : SendMailPacket)
  | takeMoney (p : UInt32) (now : MailCircumstances) (mailId : UInt32) (money : UInt64)
  | takeItem (p : UInt32) (now : MailCircumstances) (mailId : UInt32) (itemId : Nat)
  | returnToSender (p : UInt32) (now : MailCircumstances) (mailId : UInt32)
  | login (p : UInt32)
  | openMailbox (p : UInt32)
  | logout (p : UInt32)

variable (L : MailRealm)

/-- What happens; `none` when a request is refused or nobody is there to make it. -/
def handle (w : MailWorld) (e : Event) : Option MailWorld :=
  if stopped w then none
  else
    match e with
    | .send p now packet => if w.online p then w.handleSendMail L p now packet else none
    | .takeMoney p now mailId money =>
      if w.online p then w.handleMailTakeMoney p now mailId money else none
    | .takeItem p now mailId itemId =>
      if w.online p then w.handleMailTakeItem L p now mailId itemId else none
    | .returnToSender p now mailId =>
      if w.online p then w.handleMailReturnToSender L p now mailId else none
    | .login p => if p ∈ L.players then some (w.login p) else none
    | .openMailbox p => if w.online p && !w.mailsLoaded p then some (w.loadMail p) else none
    | .logout p => some (w.logout p)

/-- What is owed once a request is accepted. -/
def owedAfter (books : Books) : Event → UInt32 → Nat
  | .send _ _ packet => update books.owed books.world.mailId packet.COD.toNat
  | .takeItem _ _ mailId _ => update books.owed mailId 0
  | _ => books.owed

def step (books : Books) (e : Event) : Books :=
  match handle L books.world e with
  | none => books
  | some world => { world := world, owed := owedAfter books e }

/-- The postage of an accepted send. -/
def charged : Event → Nat
  | .send _ _ packet => thirtyEach packet.itemGuids.length
  | _ => 0

/-- **What an accepted request does to the money.** -/
structure LawfulTo (books : Books) (e : Event) (w' : MailWorld) : Prop where
  conserved : wealth L w' + charged e = wealth L books.world
  owned : ∀ p now packet, e = .send p now packet →
    thirtyEach packet.itemGuids.length + packet.money.toNat ≤ (books.world.money p).toNat
  paid : ∀ p now mailId itemId, e = .takeItem p now mailId itemId →
    ∃ m, books.world.getMail p mailId = some m ∧
      (w'.money p).toNat + books.owed mailId = (books.world.money p).toNat ∧
      mailed w' m.sender = mailed books.world m.sender + books.owed mailId

/-- A request that is refused leaves everything as it is. -/
def Lawful (books : Books) (e : Event) : Prop :=
  ∀ w', handle L books.world e = some w' → LawfulTo L books e w'

/-- The amounts fit: the sum to be owned into 64 bits, the money of a mail into the 32 bits of its
row, unless it is in memory, and a COD that is paid into an `int32`. -/
def Meets (books : Books) (e : Event) : Prop :=
  let w := books.world
  stopped w = false → match e with
  | .send p now packet => w.online p → ∀ receiver, w.checkSendMail L p now packet = some receiver →
      thirtyEach packet.itemGuids.length + packet.money.toNat < 2 ^ 64 ∧
        (w.hasLoaded receiver ∨ packet.money.toNat < 2 ^ 32)
  | .takeMoney _ _ _ _ => True
  | .takeItem p now mailId itemId => w.online p → ∀ m it, w.getMail p mailId = some m →
      MailWorld.delivered m now.time → hasEnoughMoney (w.money p) m.COD →
      (w.mMitems p).find? itemId = some it →
      (L.rules.canStoreItem w.items (playerGuid p) nullBag nullSlot [] it false).1 = .ok →
      books.owed mailId ≤ 2 ^ 31
  | .returnToSender p now mailId => w.online p → ∀ m, w.getMail p mailId = some m →
      MailWorld.delivered m now.time → w.hasLoaded m.sender ∨ m.money.toNat < 2 ^ 32
  | .login _ => True
  | .openMailbox _ => True
  | .logout p => w.mailsLoaded p → ∀ m ∈ w.mail p, m.money.toNat < 2 ^ 32

variable {L} {w : MailWorld} {owed : UInt32 → Nat} {p : UInt32}

theorem wealth_eq (L : MailRealm) (w : MailWorld) : wealth L w =
    Ledger.total L.players (fun p => (w.money p).toNat) + Ledger.total L.players (mailed w) :=
  Ledger.total_add _ _

variable {w' : MailWorld}

theorem total_money {money : UInt64} (member : p ∈ L.players)
    (changed : w'.money = update w.money p money) :
    Ledger.total L.players (fun q => (w'.money q).toNat) + (w.money p).toNat =
      Ledger.total L.players (fun q => (w.money q).toNat) + money.toNat := by
  have change := Ledger.total_change (f := fun q => (w.money q).toNat)
    (g := fun q => (w'.money q).toNat) member fun q other => by
      rw [changed, update_of_ne other]
  rw [changed] at change ⊢
  rw [update_self] at change
  exact change

theorem total_mailed {es : List Entry} (member : p ∈ L.players)
    (changed : entries w' = update (entries w) p es) :
    Ledger.total L.players (mailed w') + mailed w p =
      Ledger.total L.players (mailed w) + (es.map Entry.money).sum := by
  have own : mailed w' p = (es.map Entry.money).sum := by
    rw [mailed, changed, update_self]
  rw [← own]
  refine Ledger.total_change member fun q other => ?_
  rw [mailed, mailed, changed, update_of_ne other]

theorem total_mailed_same (same : entries w' = entries w) :
    Ledger.total L.players (mailed w') = Ledger.total L.players (mailed w) := by
  refine Ledger.total_congr fun q _ => ?_
  rw [mailed, mailed, same]

theorem sum_split (pre post : List Entry) (e : Entry) : ((pre ++ e :: post).map Entry.money).sum =
      e.money + ((pre ++ post).map Entry.money).sum := by
  rw [map_append, map_cons, sum_append, sum_cons, map_append, sum_append]
  omega

theorem sum_narrow (es : List Entry) :
    ((es.map Entry.narrow).map Entry.money).sum ≤ (es.map Entry.money).sum ∧
      (((es.map Entry.narrow).map Entry.money).sum = (es.map Entry.money).sum ↔
        ∀ e ∈ es, e.money < 2 ^ 32) := by
  induction es with
  | nil => exact ⟨Nat.le_refl _, iff_of_true rfl fun e member => by cases member⟩
  | cons e rest ih =>
    have less : e.narrow.money ≤ e.money := Nat.mod_le _ _
    have fits : e.narrow.money = e.money ↔ e.money < 2 ^ 32 := by
      rw [Entry.narrow]
      dsimp only
      omega
    simp only [map_cons, sum_cons, forall_mem_cons]
    rw [← ih.2, ← fits]
    omega

section Send

variable {now : MailCircumstances} {packet : SendMailPacket} {w' : MailWorld} {receiver : UInt32}

theorem checked (passed : w.checkSendMail L p now packet = some receiver) :
    receiver ∈ L.players ∧ packet.itemGuids.length ≤ maxMailItems ∧
      (MailWorld.reqmoney packet).toNat ≤ (w.money p).toNat := by
  rw [MailWorld.checkSendMail] at passed
  split at passed
  · cases passed
  split at passed
  · cases passed
  rename_i few
  split at passed
  · cases passed
  rename_i known
  split at passed
  · cases passed
  rename_i enough
  split at passed
  · cases passed
  split at passed
  · cases passed
  split at passed
  · cases passed
  rw [← Option.some.inj passed]
  refine ⟨(not_or.mp known).1 |> not_not.mp, Nat.le_of_not_gt few, ?_⟩
  rw [Bool.not_eq_true, Bool.not_eq_false', hasEnoughMoney] at enough
  exact UInt64.le_iff_toNat_le.mp (of_decide_eq_true enough)

theorem reqmoney_toNat (few : packet.itemGuids.length ≤ maxMailItems) :
    (MailWorld.reqmoney packet).toNat =
      (thirtyEach packet.itemGuids.length + packet.money.toNat) % 2 ^ 64 := by
  have postage : (MailWorld.postage packet.itemGuids.length).toNat =
      thirtyEach packet.itemGuids.length := by
    rw [MailWorld.postage, thirtyEach]
    split
    · rfl
    rw [UInt32.toNat_mul, UInt32.toNat_ofNat']
    have few : packet.itemGuids.length ≤ 12 := few
    change 30 * _ % _ = _
    omega
  rw [MailWorld.reqmoney, UInt64.toNat_add, UInt32.toNat_toUInt64, postage]

theorem Kept.send (kept : Kept L w owed) (running : stopped w = false) (member : p ∈ L.players)
    (accepted : w.handleSendMail L p now packet = some w') :
    ∃ receiver, w.checkSendMail L p now packet = some receiver ∧
      wealth L w' + (MailWorld.reqmoney packet).toNat = wealth L w +
        (if w.mailsLoaded receiver then packet.money.toNat else packet.money.toNat % 2 ^ 32) ∧
      (packet.money.toNat ≤ maxMoneyAmount.toNat →
        Kept L w' (update owed w.mailId packet.COD.toNat)) := by
  rw [MailWorld.handleSendMail] at accepted
  split at accepted
  · cases accepted
  rename_i receiver passed
  obtain ⟨known, few, enough⟩ := checked passed
  refine ⟨receiver, passed, ?_⟩
  have rich := kept.rich p
  have taken := modifyMoney_sub (Nat.le_trans enough rich) enough
  obtain ⟨left, result, left_toNat⟩ := Option.map_eq_some_iff.mp taken
  rw [result, Option.getD_some] at accepted
  generalize packet.itemGuids.foldl (MailWorld.attach L p receiver) (w.items, .empty) = moved
    at accepted
  have paid : Kept L { w with
      items := moved.1, mMitems := w.mMitems, money := update w.money p left } owed := by
    refine kept.with moved.1 w.mMitems _ fun q => ?_
    by_cases here : q = p
    · rw [here, update_self, left_toNat]
      omega
    · rw [update_of_ne here]
      exact kept.rich q
  have final := Option.some.inj accepted
  have moneyAfter : w'.money = update w.money p left := by
    rw [← final, sendMailTo_money]
  have entriesAfter : entries w' = update (entries w) receiver
      (arrived w ⟨moved.2, packet.money, packet.COD.toUInt32.toUInt64⟩ receiver ⟨.normal, p⟩ ::
        entries w receiver) := by
    rw [← final]
    exact paid.entries_sendMailTo
  have money := total_money member moneyAfter
  have mails := total_mailed known entriesAfter
  rw [← final]
  refine ⟨?_, fun small => ?_⟩
  · rw [wealth_eq, wealth_eq]
    have new : (arrived w ⟨moved.2, packet.money, packet.COD.toUInt32.toUInt64⟩ receiver
        ⟨.normal, p⟩).money =
        if w.mailsLoaded receiver then packet.money.toNat else packet.money.toNat % 2 ^ 32 := by
      rw [arrived]
      split <;> rfl
    rw [← new]
    rw [map_cons, sum_cons] at mails
    change _ = _ + (_ + mailed w receiver) at mails
    rw [← final] at money mails
    omega
  · refine paid.sendMailTo running rfl member small ?_
    rw [UInt32.toNat_toUInt64, UInt64.toNat_toUInt32]

end Send

/-! ## Taking -/

section Take

variable {now : MailCircumstances} {mailId : UInt32} {w' : MailWorld}

theorem Kept.proper_found (kept : Kept L w owed) {m : Mail} (found : w.getMail p mailId = some m) :
    Proper L w.mailId owed p (ofMail m) :=
  kept.entered.proper p _ (kept.mem_entries (mem_of_find?_eq_some found))

theorem Kept.takeMoney (kept : Kept L w owed) (member : p ∈ L.players) {money : UInt64}
    (accepted : w.handleMailTakeMoney p now mailId money = some w') :
    wealth L w' = wealth L w ∧ Kept L w' owed := by
  rw [MailWorld.handleMailTakeMoney] at accepted
  split at accepted
  · cases accepted
  rename_i m found
  split at accepted
  · cases accepted
  split at accepted
  · cases accepted
  rename_i owned added
  have own := kept.proper_found found
  have small : m.money.toNat ≤ maxMoneyAmount.toNat := own.money
  have rich := kept.rich p
  have sum := modifyMoney_add (w.money p) small
  rw [added, Option.map_some] at sum
  have owned_toNat : owned.toNat = (w.money p).toNat + m.money.toNat := by
    split at sum
    · exact Option.some.inj sum
    · cases sum
  have within : owned.toNat ≤ maxMoneyAmount.toNat := by
    split at sum
    · omega
    · cases sum
  obtain ⟨pre, post, whole, modified, -⟩ := split_getMail found
  obtain ⟨after, emptied⟩ := kept.modify (f := fun m => { m with money := 0, state := .changed })
    (c := owed mailId) found whole (modified _) rfl rfl (Nat.zero_le _)
    (messageID_of_getMail found ▸ own.due)
  rw [update_eq_self] at emptied
  have credited := emptied.with w.items w.mMitems (update w.money p owned) fun q => by
      by_cases here : q = p
      · rw [here, update_self]
        exact within
      · rw [update_of_ne here]
        exact kept.rich q
  obtain ⟨same, saved, -⟩ := credited.saveMail p
  have final := Option.some.inj accepted
  have moneyAfter : w'.money = update w.money p owned := by
    rw [← final, saveMail_money]
  have entriesAfter : entries w' = update (entries w) p
      (pre.map ofMail ++ ofMail { m with money := 0, state := .changed } :: post.map ofMail) := by
    rw [← final]
    exact same.trans after
  refine ⟨?_, final ▸ saved⟩
  have purse := total_money member moneyAfter
  have mails := total_mailed member entriesAfter
  have before : mailed w p = m.money.toNat +
      ((pre.map ofMail ++ post.map ofMail).map Entry.money).sum := by
    rw [mailed, kept.entries_split found whole, sum_split]
    rfl
  rw [sum_split] at mails
  change _ = _ + (0 + _) at mails
  rw [wealth_eq, wealth_eq]
  omega

theorem Kept.payCOD (kept : Kept L w owed) (running : stopped w = false) (member : p ∈ L.players)
    {m : Mail} (sender : m.sender ∈ L.players) (receiver : m.receiver ∈ L.players)
    (enough : m.COD.toNat ≤ (w.money p).toNat) (small : m.COD.toNat ≤ 2 ^ 31)
    (paid : w' = w.payCOD L p now m) :
    Kept L w' owed ∧ (w'.money p).toNat + m.COD.toNat = (w.money p).toNat ∧
      mailed w' m.sender = mailed w m.sender + m.COD.toNat ∧ wealth L w' = wealth L w := by
  rw [MailWorld.payCOD] at paid
  split at paid
  · rename_i due
    rw [gt_iff_lt, UInt64.lt_iff_toNat_lt] at due
    have known : w.knows L m.sender = true := by
      rw [MailWorld.knows, decide_eq_true (L.account_ne_zero _ sender), Bool.or_true]
    rw [if_pos known] at paid
    dsimp only at paid
    rw [sendMailTo_money] at paid
    have exactly := (pays_int32_iff enough).mpr small
    generalize (modifyMoney (w.money p) (toInt32 (-toInt32 m.COD.toNat))).getD (w.money p) = left
      at paid exactly
    have within : m.COD.toNat ≤ maxMoneyAmount.toNat := Nat.le_trans enough (kept.rich p)
    have sent : Kept L (w.sendMailTo ⟨.empty, m.COD, 0⟩ m.sender ⟨.normal, m.receiver⟩ now.time)
        (update owed w.mailId 0) := kept.sendMailTo running rfl receiver within rfl
    have same : update owed w.mailId 0 = owed := by
      rw [update_eq_self_iff]
      exact (kept.entered.later _ (UInt32.le_refl _)).symm
    rw [same] at sent
    have new : (arrived w ⟨.empty, m.COD, 0⟩ m.sender ⟨.normal, m.receiver⟩).money =
        m.COD.toNat := by
      rw [arrived]
      split
      · rfl
      · change m.COD.toNat % 2 ^ 32 = _
        exact Nat.mod_eq_of_lt (by omega)
    have moneyAfter : w'.money = update w.money p left := by
      rw [paid]
    have entriesAfter : entries w' = update (entries w) m.sender
        (arrived w ⟨.empty, m.COD, 0⟩ m.sender ⟨.normal, m.receiver⟩ :: entries w m.sender) := by
      rw [paid]
      exact kept.entries_sendMailTo
    have purse := total_money member moneyAfter
    have mails := total_mailed sender entriesAfter
    rw [map_cons, sum_cons, new] at mails
    change _ = _ + (_ + mailed w m.sender) at mails
    refine ⟨?_, ?_, ?_, ?_⟩
    · rw [paid]
      refine sent.with _ _ (update w.money p left) fun q => ?_
      by_cases here : q = p
      · rw [here, update_self]
        have rich := kept.rich p
        omega
      · rw [update_of_ne here]
        exact kept.rich q
    · rw [moneyAfter, update_self]
      exact exactly
    · rw [mailed, entriesAfter, update_self, map_cons, sum_cons, new]
      exact Nat.add_comm _ _
    · rw [wealth_eq, wealth_eq]
      omega
  · rename_i free
    rw [gt_iff_lt, UInt64.lt_iff_toNat_lt] at free
    have zero : m.COD.toNat = 0 := by
      have none : (0 : UInt64).toNat = 0 := rfl
      omega
    rw [paid, zero]
    exact ⟨kept, rfl, rfl, rfl⟩

theorem Kept.takeItem (kept : Kept L w owed) (running : stopped w = false) (member : p ∈ L.players)
    {itemId : Nat} (accepted : w.handleMailTakeItem L p now mailId itemId = some w') {m : Mail}
    (found : w.getMail p mailId = some m) (small : owed mailId ≤ 2 ^ 31) :
    Kept L w' (update owed mailId 0) ∧
      (w'.money p).toNat + owed mailId = (w.money p).toNat ∧
      mailed w' m.sender = mailed w m.sender + owed mailId ∧ wealth L w' = wealth L w := by
  obtain ⟨m', it, dest, found', delivered, enough, stored, fits, final⟩ :=
    handleMailTakeItem_eq_some_iff.mp accepted
  obtain rfl := Option.some.inj (found'.symm.trans found)
  obtain ⟨pre, post, whole, modified, -⟩ := split_getMail found
  have own := kept.proper_found found
  have number := messageID_of_getMail found
  have due : m'.COD.toNat = owed mailId := by
    have due := own.due
    rw [ofMail] at due
    dsimp only at due
    rw [number] at due
    omega
  have enough := UInt64.le_iff_toNat_le.mp (of_decide_eq_true enough)
  rw [due] at enough
  obtain ⟨after, emptied⟩ := kept.modify (f := MailWorld.withoutItem itemId) (c := 0) found whole
    (modified _) rfl rfl own.money rfl
  have receiver : m'.receiver ∈ L.players := by
    have here : m'.receiver = p := own.receiver
    rw [here]
    exact member
  have sameMoney : ∀ q, mailed (w.modify p mailId (MailWorld.withoutItem itemId)) q = mailed w q := by
    intro q
    rw [mailed, mailed, after]
    by_cases here : q = p
    · rw [here, update_self, kept.entries_split found whole, sum_split, sum_split]
      rfl
    · rw [update_of_ne here]
  have sameWealth : wealth L (w.modify p mailId (MailWorld.withoutItem itemId)) = wealth L w := by
    rw [wealth_eq, wealth_eq]
    congr 1
    exact Ledger.total_congr fun q _ => sameMoney q
  rw [MailWorld.itemTaken] at final
  generalize settles :
    (w.modify p mailId (MailWorld.withoutItem itemId)).payCOD L p now m' = w₂ at final
  obtain ⟨settled, paid, credited, conserved⟩ := emptied.payCOD running member own.sender receiver
    (by rw [due]; exact enough) (by rw [due]; exact small) settles.symm
  obtain ⟨same, saved, -⟩ := (settled.with (L.rules.storeItem w₂.items dest it)
    (update w₂.mMitems p ((w₂.mMitems p).erase itemId)) w₂.money settled.rich).saveMail p
  rw [final] at same saved
  have moneyAfter : w'.money = w₂.money := by
    rw [← final, saveMail_money]
  have mailedAfter : ∀ q, mailed w' q = mailed w₂ q := fun q => by
    rw [mailed, same]
    rfl
  rw [due] at paid credited
  refine ⟨saved, ?_, ?_, ?_⟩
  · rw [moneyAfter]
    exact paid
  · rw [mailedAfter, credited, sameMoney]
  · rw [← sameWealth, ← conserved, wealth_eq, wealth_eq, moneyAfter]
    congr 1
    exact Ledger.total_congr fun q _ => mailedAfter q

end Take

section Return

variable {now : MailCircumstances} {mailId : UInt32} {w' : MailWorld}

theorem Kept.returnToSender (kept : Kept L w owed) (running : stopped w = false)
    (member : p ∈ L.players) {m : Mail} (found : w.getMail p mailId = some m)
    (back : w.returned L p now mailId m = w') :
    wealth L w' + m.money.toNat = wealth L w +
        (if w.mailsLoaded m.sender then m.money.toNat else m.money.toNat % 2 ^ 32) ∧
      Kept L w' owed := by
  obtain ⟨pre, post, whole, -, erased⟩ := split_getMail found
  obtain ⟨after, emptied⟩ := kept.forget found whole erased
  have own := kept.proper_found found
  have receiver : m.receiver ∈ L.players := by
    have here : m.receiver = p := own.receiver
    rw [here]
    exact member
  have sent : m.messageType = .normal ∧ m.sender ≠ 0 := by
    refine ⟨own.normal, fun nobody => L.zero_not_mem ?_⟩
    rw [← nobody]
    exact own.sender
  have sender : m.sender ∈ L.players := own.sender
  have there : L.account m.sender ≠ 0 := L.account_ne_zero _ sender
  have cleared := emptied.with w.items
    (update w.mMitems p (m.items.foldl KeyedList.erase (w.mMitems p))) w.money kept.rich
  rw [MailWorld.returned] at back
  rw [if_pos sent, MailWorld.sendReturnToSender,
    if_pos (by rw [MailWorld.knows, decide_eq_true there, Bool.or_true])] at back
  have moneyAfter : w'.money = w.money := by
    rw [← back, sendMailTo_money]
    rfl
  have entriesAfter : entries w' = update (entries (w.forget p mailId)) m.sender
      (arrived (w.forget p mailId) ⟨w.returnedItems p m, m.money, 0⟩ m.sender ⟨.normal, m.receiver⟩
        :: entries (w.forget p mailId) m.sender) := by
    rw [← back]
    exact cleared.entries_sendMailTo
  have new : (arrived (w.forget p mailId) ⟨w.returnedItems p m, m.money, 0⟩ m.sender
      ⟨.normal, m.receiver⟩).money =
      if w.mailsLoaded m.sender then m.money.toNat else m.money.toNat % 2 ^ 32 := by
    rw [arrived]
    change (if w.mailsLoaded m.sender = true then _ else _ : Entry).money = _
    split <;> rfl
  have dropped := total_mailed member after
  have got := total_mailed sender entriesAfter
  have before : mailed w p = m.money.toNat +
      ((pre.map ofMail ++ post.map ofMail).map Entry.money).sum := by
    rw [mailed, kept.entries_split found whole, sum_split]
    rfl
  rw [map_cons, sum_cons, new] at got
  change _ = _ + (_ + mailed (w.forget p mailId) m.sender) at got
  refine ⟨?_, ?_⟩
  · rw [wealth_eq, wealth_eq, moneyAfter]
    omega
  have sentOn : Kept L w' (update owed w.mailId 0) := by
    rw [← back]
    exact cleared.sendMailTo running rfl receiver own.money rfl
  have same : update owed w.mailId 0 = owed := by
    rw [update_eq_self_iff]
    exact (kept.entered.later _ (UInt32.le_refl _)).symm
  rw [same] at sentOn
  exact sentOn

theorem Kept.logout_wealth (kept : Kept L w owed) (p : UInt32) :
    wealth L (w.logout p) = wealth L w ↔
      (w.mailsLoaded p = true → ∀ m ∈ w.mail p, m.money.toNat < 2 ^ 32) := by
  obtain ⟨after, -⟩ := kept.logout p
  have moneyAfter : (w.logout p).money = w.money := by
    rw [MailWorld.logout]
    exact saveMail_money w p
  rw [wealth_eq, wealth_eq, moneyAfter]
  cases loaded : w.mailsLoaded p with
  | false =>
    rw [loaded, if_neg Bool.false_ne_true] at after
    rw [total_mailed_same after]
    exact iff_of_true rfl fun absurd => by cases absurd
  | true =>
    rw [loaded, if_pos rfl] at after
    have mails := total_mailed (kept.known p (kept.present p loaded)) after
    obtain ⟨-, fits⟩ := sum_narrow (entries w p)
    have members : (∀ e ∈ entries w p, e.money < 2 ^ 32) ↔
        ∀ m ∈ w.mail p, m.money.toNat < 2 ^ 32 := by
      rw [entries_of_loaded loaded (kept.live p), List.forall_mem_map]
      rfl
    rw [members] at fits
    change _ + ((entries w p).map Entry.money).sum = _ at mails
    rw [forall_prop_of_true rfl, ← fits]
    omega

end Return

/-! ## The rule -/

variable {books : Books} {e : Event}

/-- A request is lawful exactly when its amounts fit, and then the invariant is kept. -/
structure Ruled (L : MailRealm) (books : Books) (e : Event) : Prop where
  lawful_iff : Lawful L books e ↔ Meets L books e
  keeps : Meets L books e → Kept L (step L books e).world (step L books e).owed

theorem Kept.ruled_of_refused (kept : Kept L books.world books.owed)
    (refused : handle L books.world e = none) (meets : Meets L books e) : Ruled L books e := by
  refine ⟨iff_of_true (fun w' accepted => ?_) meets, fun _ => ?_⟩
  · rw [refused] at accepted
    cases accepted
  · rw [step, refused]
    exact kept

theorem ruled_of_accepted (accepted : handle L books.world e = some w')
    (lawful : LawfulTo L books e w' ↔ Meets L books e)
    (keeps : Meets L books e → Kept L w' (owedAfter books e)) : Ruled L books e := by
  refine ⟨?_, fun meets => ?_⟩
  · rw [← lawful]
    refine ⟨fun all => all w' accepted, fun now w'' again => ?_⟩
    rw [accepted] at again
    rw [← Option.some.inj again]
    exact now
  · rw [step, accepted]
    exact keeps meets

section

variable (kept : Kept L books.world books.owed)

include kept

theorem Kept.ruled_of_stopped (halted : stopped books.world = true) : Ruled L books e := by
  refine kept.ruled_of_refused ?_ fun running => ?_
  · exact if_pos halted
  · rw [halted] at running
    cases running

theorem Kept.ruled_of_request {p : UInt32} {result : Option MailWorld}
    (handled : stopped books.world = false →
      handle L books.world e = if books.world.online p then result else none)
    (away : (stopped books.world = false → books.world.online p = true → Meets L books e) →
      Meets L books e) (refused : result = none → Meets L books e)
    (accepted : ∀ w', stopped books.world = false → books.world.online p = true →
      result = some w' → handle L books.world e = some w' → Ruled L books e) :
    Ruled L books e := by
  cases running : stopped books.world with
  | true => exact kept.ruled_of_stopped running
  | false =>
    have handled := handled running
    cases online : books.world.online p with
    | false =>
      rw [online, if_neg Bool.false_ne_true] at handled
      refine kept.ruled_of_refused handled (away fun _ there => ?_)
      rw [online] at there
      cases there
    | true =>
      rw [online, if_pos rfl] at handled
      cases given : result with
      | none => exact kept.ruled_of_refused (handled.trans given) (refused given)
      | some w' => exact accepted w' running online given (handled.trans given)

theorem Kept.ruled_send (p : UInt32)
    (now : MailCircumstances) (packet : SendMailPacket) : Ruled L books (.send p now packet) := by
  refine kept.ruled_of_request (fun running => if_neg (by rw [running]; exact Bool.false_ne_true))
    (fun meets running online => meets running online running online) (fun result => ?_)
    fun w' running online result handled => ?_
  · intro _ _ receiver passed
    rw [MailWorld.handleSendMail, passed] at result
    cases result
  have member := kept.known p online
  obtain ⟨receiver, passed, money, keeps⟩ := kept.send running member result
  obtain ⟨-, few, enough⟩ := checked passed
  have rich := kept.rich p
  rw [maxMoneyAmount_toNat] at rich
  rw [reqmoney_toNat few] at money enough
  refine ruled_of_accepted handled ⟨fun lawful => ?_, fun meets => ?_⟩ fun meets => ?_
  · intro _ _ receiver' passed'
    obtain rfl := Option.some.inj (passed'.symm.trans passed)
    have owned := lawful.owned p now packet rfl
    have conserved := lawful.conserved
    rw [charged] at conserved
    refine ⟨by omega, ?_⟩
    rw [kept.hasLoaded_eq]
    rw [Nat.mod_eq_of_lt (by omega)] at money
    split at money
    · rename_i loaded
      exact Or.inl loaded
    · right
      omega
  · obtain ⟨small, fits⟩ := meets running online receiver passed
    rw [Nat.mod_eq_of_lt small] at money enough
    rw [kept.hasLoaded_eq] at fits
    refine ⟨?_, fun p' now' packet' same => ?_, fun p' now' mailId itemId same => ?_⟩
    · rw [charged]
      split at money
      · omega
      · rename_i absent
        have small := fits.resolve_left absent
        omega
    · cases same
      exact enough
    · cases same
  · obtain ⟨small, -⟩ := meets running online receiver passed
    rw [Nat.mod_eq_of_lt small] at enough
    refine keeps ?_
    rw [maxMoneyAmount_toNat]
    omega

theorem Kept.ruled_takeMoney (p : UInt32)
    (now : MailCircumstances) (mailId : UInt32) (money : UInt64) :
    Ruled L books (.takeMoney p now mailId money) := by
  refine kept.ruled_of_request (fun running => if_neg (by rw [running]; exact Bool.false_ne_true))
    (fun _ _ => True.intro) (fun _ _ => True.intro) fun w' running online result handled => ?_
  obtain ⟨same, after⟩ := kept.takeMoney (kept.known p online) result
  refine ruled_of_accepted handled (iff_of_true ⟨same, fun p' now' packet' absurd => ?_,
    fun p' now' mailId' itemId absurd => ?_⟩ fun _ => True.intro) fun _ => after
  · cases absurd
  · cases absurd

theorem Kept.ruled_takeItem (p : UInt32)
    (now : MailCircumstances) (mailId : UInt32) (itemId : Nat) :
    Ruled L books (.takeItem p now mailId itemId) := by
  refine kept.ruled_of_request (fun running => if_neg (by rw [running]; exact Bool.false_ne_true))
    (fun meets running online => meets running online running online) (fun result => ?_)
    fun w' running online result handled => ?_
  · intro _ _ m it found delivered enough stored fits
    exact absurd result (Custody.takeItem_accepted found delivered enough stored fits)
  obtain ⟨m, it, found, delivered, enough, stored, fits, money, -⟩ := Custody.takeItem_cases result
  refine ruled_of_accepted handled ⟨fun lawful => ?_, fun meets => ?_⟩ fun meets => ?_
  · intro _ _ _ _ _ _ _ _ _
    obtain ⟨m', found', paid, -⟩ := lawful.paid p now mailId itemId rfl
    obtain rfl := Option.some.inj (found'.symm.trans found)
    have due := (kept.proper_found found).due
    change m'.COD.toNat = books.owed m'.messageID % 2 ^ 32 at due
    rw [messageID_of_getMail found] at due
    obtain ⟨most, more⟩ := le_pays_int32 (books.world.money p) m'.COD.toNat
    rw [money] at paid
    split at paid
    · omega
    rename_i free
    rw [gt_iff_lt, UInt64.lt_iff_toNat_lt] at free
    have zero : (0 : UInt64).toNat = 0 := rfl
    omega
  · have small := meets running online m it found delivered enough stored fits
    obtain ⟨-, paid, credited, conserved⟩ :=
      kept.takeItem running (kept.known p online) result found small
    refine ⟨conserved, fun p' now' packet' absurd => ?_, fun p' now' mailId' itemId' same => ?_⟩
    · cases absurd
    · cases same
      exact ⟨m, found, paid, credited⟩
  · have small := meets running online m it found delivered enough stored fits
    exact (kept.takeItem running (kept.known p online) result found small).1

theorem Kept.ruled_return (p : UInt32)
    (now : MailCircumstances) (mailId : UInt32) : Ruled L books (.returnToSender p now mailId) := by
  refine kept.ruled_of_request (fun running => if_neg (by rw [running]; exact Bool.false_ne_true))
    (fun meets running online => meets running online running online) (fun result => ?_)
    fun w' running online result handled => ?_
  · intro _ _ m found delivered
    exact absurd result (Custody.return_accepted found delivered)
  obtain ⟨m, found, delivered, back⟩ := handleMailReturnToSender_eq_some_iff.mp result
  obtain ⟨money, after⟩ := kept.returnToSender running (kept.known p online) found back
  refine ruled_of_accepted handled ⟨fun lawful => ?_, fun meets => ?_⟩ fun _ => after
  · intro _ _ m' found' _
    obtain rfl := Option.some.inj (found'.symm.trans found)
    have conserved : wealth L w' + 0 = wealth L books.world := lawful.conserved
    rw [kept.hasLoaded_eq]
    split at money
    · rename_i loaded
      exact Or.inl loaded
    · right
      omega
  · have fits := meets running online m found delivered
    rw [kept.hasLoaded_eq] at fits
    refine ⟨?_, fun p' now' packet' absurd => ?_, fun p' now' mailId' itemId absurd => ?_⟩
    · change wealth L w' + 0 = _
      split at money
      · omega
      · rename_i absent
        have small := fits.resolve_left absent
        omega
    · cases absurd
    · cases absurd

end

theorem LawfulTo.of_conserved (conserved : wealth L w' = wealth L books.world)
    (free : charged e = 0) (noSend : ∀ p now packet, e ≠ .send p now packet)
    (noTake : ∀ p now mailId itemId, e ≠ .takeItem p now mailId itemId) :
    LawfulTo L books e w' := by
  refine ⟨by rw [free]; exact conserved, fun p now packet same => ?_,
    fun p now mailId itemId same => ?_⟩
  · exact absurd same (noSend p now packet)
  · exact absurd same (noTake p now mailId itemId)

section

variable (kept : Kept L books.world books.owed)

include kept

theorem Kept.ruled_login (p : UInt32) : Ruled L books (.login p) := by
  cases running : stopped books.world with
  | true => exact kept.ruled_of_stopped running
  | false =>
    have handled : handle L books.world (.login p) =
        if p ∈ L.players then some (books.world.login p) else none :=
      if_neg (by rw [running]; exact Bool.false_ne_true)
    by_cases member : p ∈ L.players
    · rw [if_pos member] at handled
      refine ruled_of_accepted handled (iff_of_true ?_ fun _ => True.intro) fun _ =>
        kept.login member
      refine .of_conserved rfl rfl (fun _ _ _ same => ?_) fun _ _ _ _ same => ?_
      · cases same
      · cases same
    · rw [if_neg member] at handled
      exact kept.ruled_of_refused handled fun _ => True.intro

theorem Kept.ruled_openMailbox (p : UInt32) : Ruled L books (.openMailbox p) := by
  cases running : stopped books.world with
  | true => exact kept.ruled_of_stopped running
  | false =>
    have handled : handle L books.world (.openMailbox p) =
        if books.world.online p && !books.world.mailsLoaded p then
          some (books.world.loadMail p) else none :=
      if_neg (by rw [running]; exact Bool.false_ne_true)
    split at handled
    · rename_i opens
      rw [Bool.and_eq_true, Bool.not_eq_true'] at opens
      obtain ⟨same, after⟩ := kept.loadMail opens.1 opens.2
      refine ruled_of_accepted handled (iff_of_true ?_ fun _ => True.intro) fun _ => after
      refine .of_conserved ?_ rfl (fun _ _ _ same => ?_) fun _ _ _ _ same => ?_
      · rw [wealth_eq, wealth_eq, total_mailed_same same]
        rfl
      · cases same
      · cases same
    · exact kept.ruled_of_refused handled fun _ => True.intro

theorem Kept.ruled_logout (p : UInt32) : Ruled L books (.logout p) := by
  cases running : stopped books.world with
  | true => exact kept.ruled_of_stopped running
  | false =>
    have handled : handle L books.world (.logout p) = some (books.world.logout p) :=
      if_neg (by rw [running]; exact Bool.false_ne_true)
    refine ruled_of_accepted handled ⟨fun lawful _ => ?_, fun meets => ?_⟩ fun _ =>
      (kept.logout p).2
    · exact (kept.logout_wealth p).mp lawful.conserved
    · refine .of_conserved ((kept.logout_wealth p).mpr (meets running)) rfl
        (fun _ _ _ same => ?_) fun _ _ _ _ same => ?_
      · cases same
      · cases same

theorem Kept.ruled (e : Event) : Ruled L books e := by
  cases e with
  | send p now packet => exact kept.ruled_send p now packet
  | takeMoney p now mailId money => exact kept.ruled_takeMoney p now mailId money
  | takeItem p now mailId itemId => exact kept.ruled_takeItem p now mailId itemId
  | returnToSender p now mailId => exact kept.ruled_return p now mailId
  | login p => exact kept.ruled_login p
  | openMailbox p => exact kept.ruled_openMailbox p
  | logout p => exact kept.ruled_logout p

end

/-- The players before the first mail, none of them too rich. -/
structure Start where
  items : ItemWorld
  money : UInt32 → UInt64
  rich : ∀ p, money p ≤ maxMoneyAmount
  mailId : UInt32

def Start.opened (start : Start) : Books where
  world :=
    { items := start.items
      money := start.money
      online := fun _ => false
      mailsLoaded := fun _ => false
      mail := fun _ => []
      mMitems := fun _ => .empty
      rows := fun _ => []
      mailId := start.mailId }
  owed := fun _ => 0

theorem Start.kept (start : Start) (L : MailRealm) :
    Kept L start.opened.world start.opened.owed := by
  have none : ∀ p, entries start.opened.world p = [] := fun p => rfl
  refine ⟨fun p => UInt64.le_iff_toNat_le.mp (start.rich p), fun p online => ?_, fun p loaded => ?_,
    fun p loaded => ?_, fun p _ => rfl, ⟨fun p e member => ?_, fun p => ?_, fun p q e eIn => ?_,
    fun _ _ => rfl⟩⟩
  · cases online
  · cases loaded
  · cases loaded
  · rw [none] at member
    cases member
  · rw [none]
    exact nodup_nil
  · rw [none] at eIn
    cases eIn

/-- **Mails conserve money** exactly as long as the amounts fit where they are written. -/
theorem eachStep_conserves_iff (L : MailRealm) (start : Start) (events : List Event) :
    Machine.EachStep (step L) (Lawful L) start.opened events ↔
      Machine.EachStep (step L) (Meets L) start.opened events :=
  Machine.eachStep_iff (I := fun books => Kept L books.world books.owed) (start.kept L)
    (fun _ e kept meets => (kept.ruled e).keeps meets) fun _ e kept => (kept.ruled e).lawful_iff

def twoSilver : Start where
  items := ⟨⟨[], nodup_nil⟩, 100⟩
  money := fun p => if p = 7 then 200 else 0
  rich := fun p => by
    split
    · decide
    · decide
  mailId := 1

/-- He sends all but thirty of what 64 bits hold, and it costs nothing. -/
theorem not_lawful_of_wrapped_sum :
    ¬ Machine.EachStep (step Custody.twoCharacters) (Lawful Custody.twoCharacters) twoSilver.opened
      [.login 7, .send 7 Custody.noon ⟨some 8, [], 0xFFFFFFFFFFFFFFE2, 0⟩] := by
  rintro ⟨-, lawful, -⟩
  have accepted : (handle Custody.twoCharacters
      (step Custody.twoCharacters twoSilver.opened (.login 7)).world
      (.send 7 Custody.noon ⟨some 8, [], 0xFFFFFFFFFFFFFFE2, 0⟩)).isSome := by decide
  obtain ⟨w', handled⟩ := Option.isSome_iff_exists.mp accepted
  have owned := (lawful w' handled).owned 7 Custody.noon _ rfl
  exact absurd owned (by decide)

end MailMoney

end Sky548
