import Sky548.Trade.Exchange

/-!
# Accepted terms

A change of an offer takes back what either side has accepted, so that a trade that is executed is
on the terms that both have seen.
-/

namespace Sky548.Trade

open Function List

/-- What a side offers. -/
def terms (data : TradeDatas) (s : Side) : (Fin tradeSlotCount → Nat) × UInt64 :=
  ((data s).items, (data s).money)

/-- The side has accepted, and the terms have been these since. -/
def Agreed (R : ItemRules) (T : Traders) (tr : Trade) (events : List Event) (s : Side)
    (offers : Side → (Fin tradeSlotCount → Nat) × UInt64) : Prop :=
  ∃ before now after, events = before ++ ⟨s, now, .acceptTrade⟩ :: after ∧ ∀ mid, mid <+: after →
    ∃ data, (Machine.run (step R T) tr (before ++ ⟨s, now, .acceptTrade⟩ :: mid)).data = some data ∧
      terms data = offers

variable {R : ItemRules} {T : Traders} {now : Circumstances} {tr : Trade} {me s : Side}
variable {data data' : TradeDatas}

theorem terms_setAccepted (data : TradeDatas) (s : Side) (b : Bool) :
    terms (data.setAccepted s b) = terms data := by
  funext s'
  rw [terms, items_setAccepted, money_setAccepted, terms]

theorem of_setAccepted {b : Bool} (accepted : (data.setAccepted me b s).accepted = true) :
    s = me ∧ b = true ∨ (data s).accepted = true := by
  rw [TradeDatas.setAccepted] at accepted
  by_cases own : s = me
  · rw [own, update_self] at accepted
    exact Or.inl ⟨own, accepted⟩
  · rw [update_of_ne own] at accepted
    exact Or.inr accepted

theorem setItem_eq {slot : Fin tradeSlotCount} {itemGuid : Nat}
    (accepted : (data.setItem me slot itemGuid s).accepted = true) :
    data.setItem me slot itemGuid = data := by
  rw [TradeDatas.setItem] at accepted ⊢
  split
  · rfl
  · rename_i isNew
    rw [if_neg isNew] at accepted
    cases accepted

theorem setMoney_eq {owned money : UInt64}
    (accepted : (data.setMoney me owned money s).accepted = true) :
    data.setMoney me owned money = data := by
  rw [TradeDatas.setMoney] at accepted ⊢
  split
  · rfl
  split
  · rfl
  · rename_i isNew enough
    rw [if_neg isNew, if_neg enough] at accepted
    cases accepted

theorem of_refuse (refused : refuse R T now me tr data = some data')
    (accepted : (data' s).accepted = true) : (data s).accepted = true ∧ terms data = terms data' := by
  have takenBack : ∀ s', some (data.setAccepted s' false) = some data' →
      (data s).accepted = true ∧ terms data = terms data' := by
    rintro s' ⟨⟩
    rw [terms_setAccepted]
    exact ⟨(of_setAccepted accepted).resolve_left nofun, rfl⟩
  rw [refuse] at refused
  split at refused
  · exact takenBack _ refused
  split at refused
  · exact takenBack _ refused
  split at refused
  · exact takenBack _ refused
  split at refused
  · exact takenBack _ refused
  split at refused
  · cases refused
    exact ⟨accepted, rfl⟩
  · cases refused

theorem step_accepted {e : Event} (after : (step R T tr e).data = some data')
    (accepted : (data' s).accepted = true) : (∃ now, e = ⟨s, now, .acceptTrade⟩) ∨
      ∃ data, tr.data = some data ∧ (data s).accepted = true ∧ terms data = terms data' := by
  obtain ⟨me, now, packet⟩ := e
  have before : tr.data = some data' → ∃ data, tr.data = some data ∧
      (data s).accepted = true ∧ terms data = terms data' := fun same => ⟨data', same, accepted, rfl⟩
  cases packet with
  | setTradeGold gold =>
    obtain ⟨data, open', rfl⟩ := Option.map_eq_some_iff.mp after
    exact Or.inr (before (open'.trans (congrArg some (setMoney_eq accepted).symm)))
  | setTradeItem tradeSlot slot bag =>
    rw [Trade.step, handle, handleSetTradeItem] at after
    refine Or.inr ?_
    split at after
    · exact before after
    rename_i data open'
    split at after
    · split at after
      · exact before after
      split at after
      · exact before after
      split at after
      · exact before after
      cases after
      exact before (open'.trans (congrArg some (setItem_eq accepted).symm))
    · exact before after
  | clearTradeItem tradeSlot =>
    rw [Trade.step, handle] at after
    split at after
    · obtain ⟨data, open', rfl⟩ := Option.map_eq_some_iff.mp after
      exact Or.inr (before (open'.trans (congrArg some (setItem_eq accepted).symm)))
    · exact Or.inr (before after)
  | acceptTrade =>
    rcases s.eq_or_eq_other me with rfl | rfl
    · exact Or.inl ⟨now, rfl⟩
    rw [Trade.step, handle, handleAcceptTrade] at after
    refine Or.inr ?_
    split at after
    · exact before after
    rename_i data open'
    dsimp only at after
    refine ⟨data, open', ?_⟩
    have own : ∀ {b}, (data.setAccepted me b me.other).accepted = true →
        (data me.other).accepted = true := fun accepted =>
      (of_setAccepted accepted).resolve_left fun both => me.other_ne both.1
    split at after
    · rename_i refused
      cases after
      obtain ⟨accepted, same⟩ := of_refuse refused accepted
      exact ⟨own accepted, (terms_setAccepted data me true).symm.trans same⟩
    split at after
    · cases after
      exact ⟨own accepted, (terms_setAccepted data me true).symm⟩
    split at after
    · cases after
      cases accepted
    · cases after
  | unacceptTrade =>
    obtain ⟨data, open', rfl⟩ := Option.map_eq_some_iff.mp after
    have own := (of_setAccepted accepted).resolve_left fun both => Bool.false_ne_true both.2
    exact Or.inr ⟨data, open', own, (terms_setAccepted data me false).symm⟩

theorem agreed_run (start : Start R) (events : List Event) : ∀ {data : TradeDatas} {s : Side},
    (Machine.run (step R T) start.trade events).data = some data → (data s).accepted = true →
      Agreed R T start.trade events s (terms data) := by
  induction events using List.reverseRecOn with
  | nil =>
    rintro data s ⟨⟩ accepted
    cases accepted
  | append_singleton events e ih =>
    intro data s open' accepted
    have last : ∀ before, Machine.run (step R T) start.trade (before ++ [e]) =
        step R T (Machine.run (step R T) start.trade before) e := fun _ => foldl_concat _ _ _ _
    have open'' := open'
    rw [last] at open''
    rcases step_accepted open'' accepted with ⟨now, rfl⟩ | ⟨data₀, was, accepted₀, same⟩
    · refine ⟨events, now, [], rfl, fun mid isPrefix => ⟨data, ?_, rfl⟩⟩
      rw [prefix_nil.mp isPrefix, open']
    · obtain ⟨before, now, after, rfl, throughout⟩ := ih was accepted₀
      refine ⟨before, now, after ++ [e], by rw [append_assoc, cons_append], fun mid isPrefix => ?_⟩
      rcases prefix_concat_iff.mp isPrefix with rfl | earlier
      · rw [append_assoc, cons_append] at open'
        exact ⟨data, open', rfl⟩
      · exact same ▸ throughout mid earlier

end Sky548.Trade
