import Sky548.Combat.Containers
import Mathlib.Tactic.Linarith
import Mathlib.Tactic.Ring

/-!
# What a taunt leaves

Threat as rational numbers. A taunt of a unit adds to its threat and notes how much; what else is
added is counted apart (`addedTo`), so that threat is what was added by other means and what is noted
(`ledger_run`). The end of a taunt takes away what is noted, if the unit is online then. If it is
not, nothing is taken away (`residue_iff`).
-/

namespace Sky548

open Option
open Function (update_of_ne update_self)

def exactThreat : FloatOps ℚ where
  zero := 0
  add := (· + ·)
  sub := (· - ·)
  mul := (· * ·)
  lt := fun a b => a < b
  le := fun a b => a ≤ b
  eq := fun a b => a = b
  meleeRule := 11 / 10
  rangedRule := 13 / 10
  calculatePct := fun threat percent => threat * percent / 100

namespace ThreatManager

/-- A taunt of this unit, or its end -/
def Op.taunts (t : UInt64) : Op ℚ → Bool
  | .tauntApply taunter => taunter = t
  | .tauntFadeOut taunter => taunter = t
  | _ => false

/-- Nobody is forgotten, and what is noted of taunts is left to them. -/
def Op.Ordinary : Op ℚ → Prop
  | .addTempThreat _ _ | .resetTempThreat _ | .removeReference _ | .clearReferences => False
  | _ => True

/-- Threat that is none stays none whatever a unit's auras make of threat. -/
def Still (around : Battlefield ℚ) : Prop :=
  ∀ guid, (around.unit guid).applyTotalThreatModifier spellSchoolMaskNormal 0 = 0

/-- What is added to the threat of a reference by other means than taunts of `t` -/
def addedTo (t : UInt64) (k : Nat) : ThreatManager ℚ → List (Battlefield ℚ × Nat × Op ℚ) → ℚ
  | _, [] => 0
  | m, (around, depth, op) :: rest =>
    (m.perform exactThreat around depth op).elim 0 fun m' =>
      (if op.taunts t then 0 else m'.getThreat exactThreat k - m.getThreat exactThreat k) +
        addedTo t k m' rest

/-- The threat of a reference, and what is noted of it for a taunt of `t` -/
def account (t : UInt64) (r : HostileReference ℚ) : ℚ × ℚ :=
  (r.iThreat, if r.iUnitGuid = t then r.iTempThreatModifier else 0)

def noted (t : UInt64) (r : HostileReference ℚ) : ℚ := (account t r).2

/-- Something of each reference is as listed. -/
def Held {V : Type} [Zero V] (v : HostileReference ℚ → V) (a : Nat → V) (m : ThreatManager ℚ) :
    Prop :=
  Consistent m ∧ ∀ k, ((m.reference k).map v).getD 0 = a k

def accountAt (t : UInt64) (m : ThreatManager ℚ) (k : Nat) : ℚ × ℚ :=
  ((m.reference k).map (account t)).getD 0

variable {m m' : ThreatManager ℚ} {around : Battlefield ℚ} {ref k depth : Nat} {t : UInt64}
  {r : HostileReference ℚ}

theorem accountAt_fst : (m.accountAt t k).1 = m.getThreat exactThreat k := by
  rw [accountAt, getThreat]
  cases m.reference k <;> rfl

theorem accountAt_snd : (m.accountAt t k).2 = ((m.reference k).map (noted t)).getD 0 := by
  rw [accountAt]
  cases m.reference k <;> rfl

theorem accountAt_some (there : m.reference k = some r) : m.accountAt t k = account t r := by
  rw [accountAt, there]
  rfl

/-- The threat without what is noted -/
def dueAt (t : UInt64) (m : ThreatManager ℚ) (k : Nat) : ℚ :=
  (m.accountAt t k).1 - (m.accountAt t k).2

section Held

variable {V : Type} [Zero V] {v : HostileReference ℚ → V} {a : Nat → V}

/-- **What is no flag, and is nothing for a new reference**, is as listed after all that amounts do which
do not change it. -/
theorem stable_held {A : ℚ → Prop} (loose : ∀ (r : HostileReference ℚ) online accessible valid,
      v { r with iOnline := online, iAccessible := accessible, isValid := valid } = v r)
    (isNew : ∀ guid, v ⟨0, 0, guid, true, true, true⟩ = 0)
    (added : ∀ r threat, A threat → v { r with iThreat := exactThreat.add r.iThreat threat } =
      v r)
    (owners : ∀ guid, A ((around.unit guid).applyTotalThreatModifier spellSchoolMaskNormal 0))
    (parts : ∀ threat percent, A threat → exactThreat.lt 0 threat = true →
      A (exactThreat.calculatePct threat percent) ∧
        A (exactThreat.sub threat (exactThreat.calculatePct threat percent))) :
    Stable exactThreat around A (Held v a) where
  owners := owners
  parts := parts
  added := fun m ref threat amount held => ⟨held.1.modify fun _ => ⟨rfl, rfl⟩, fun k => by
    rw [map_modify fun r _ => added r threat amount]
    exact held.2 k⟩
  updated := fun m ref held => ⟨held.1.updateOnlineStatus, fun k => by
    rw [map_updateOnlineStatus loose]
    exact held.2 k⟩
  told := fun m ref threat held => ⟨held.1.threatChange threat, fun k => by
    rw [reference_processThreatEvent]
    exact held.2 k⟩
  offline := fun m ref held => ⟨held.1.setOnlineOfflineState false, fun k => by
    rw [map_setOnlineOfflineState loose]
    exact held.2 k⟩
  created := by
    intro m victim held notOnline notOffline
    refine ⟨(@consistent_stable ℚ exactThreat around).created m victim held.1 notOnline notOffline,
      fun k => ?_⟩
    rw [← held.2 k]
    change ((Function.update m.reference m.next _ k).map v).getD 0 = _
    by_cases here : k = m.next
    · rw [here, update_self, held.1.fresh m.next (Nat.le_refl _)]
      exact isNew victim
    · rw [update_of_ne here]

theorem Held.modify {f : HostileReference ℚ → HostileReference ℚ} (held : Held v a m)
    (keeps : ∀ r, (f r).iUnitGuid = r.iUnitGuid ∧ (f r).iOnline = r.iOnline)
    (same : ∀ r, m.reference ref = some r → v (f r) = v r) : Held v a (m.modify ref f) :=
  ⟨held.1.modify keeps, fun k => by
    rw [map_modify same]
    exact held.2 k⟩

end Held

theorem stable_noted (a : Nat → ℚ) : Stable exactThreat around (fun _ => True) (Held (noted t) a) :=
  stable_held (fun _ _ _ _ => rfl) (fun _ => ite_self _) (fun _ _ _ => rfl) (fun _ => True.intro)
    fun _ _ _ _ => ⟨True.intro, True.intro⟩

theorem stable_account (still : Still around) (a : Nat → ℚ × ℚ) :
    Stable exactThreat around (· = 0) (Held (account t) a) := by
  refine stable_held (fun _ _ _ _ => rfl) (fun _ => ?_) (fun r threat none => ?_) still
    fun threat _ none positive => ?_
  · rw [account, ite_self]
    rfl
  · rw [none]
    exact Prod.ext (add_zero r.iThreat) rfl
  · rw [none] at positive
    have less : (0 : ℚ) < 0 := of_decide_eq_true positive
    exact absurd less (lt_irrefl 0)

theorem guid_of_found {c : ThreatContainer} {victim : UInt64}
    (found : m.getReferenceByTarget c victim = some ref) :
    ref ∈ c.iThreatList ∧ ∃ r, m.reference ref = some r ∧ r.iUnitGuid = victim := by
  have hit := List.find?_some found
  refine ⟨List.mem_of_find?_eq_some found, ?_⟩
  cases there : m.reference ref with
  | none =>
    rw [there] at hit
    cases hit
  | some r =>
    rw [there, any_some, decide_eq_true_eq] at hit
    exact ⟨r, rfl, hit⟩

theorem keeps_noted {a : Nat → ℚ} (held : Held (noted t) a m) {op : Op ℚ} (ordinary : op.Ordinary)
    (other : op.taunts t = false) :
    Keeps (Held (noted t) a) (m.perform exactThreat around depth op) := by
  have stable : Stable exactThreat around (fun _ => True) (Held (noted t) a) := stable_noted a
  have adds := fun m ref threat => stable.addToRef depth m ref threat True.intro
  have loose : ∀ (r : HostileReference ℚ) online accessible valid, noted t
      { r with iOnline := online, iAccessible := accessible, isValid := valid } = noted t r :=
    fun _ _ _ _ => rfl
  have lined : ∀ {m : ThreatManager ℚ} (ref : Nat) isOnline, Held (noted t) a m →
      Held (noted t) a (m.setOnlineOfflineState exactThreat ref isOnline) :=
    fun ref isOnline held => ⟨held.1.setOnlineOfflineState isOnline, fun k => by
      rw [map_setOnlineOfflineState loose]
      exact held.2 k⟩
  cases op with
  | addThreat victim threat schoolMask threatSpell =>
    exact keeps_addThreatBy stable (fun m ref threat _ => adds m ref threat) held True.intro
  | doAddThreat victim threat =>
    exact keeps_doAddThreatBy stable (fun m ref threat _ => adds m ref threat) held _ True.intro
  | modifyThreatPercent victim percent =>
    change Keeps _ (m.modifyThreatPercent exactThreat around depth victim percent)
    rw [modifyThreatPercent]
    split
    · exact adds m _ _ held
    · exact keeps_some held
  | tauntApply taunter =>
    have apart : taunter ≠ t := of_decide_eq_false other
    change Keeps _ (m.tauntApply exactThreat around depth taunter)
    rw [tauntApply.eq_def]
    split
    · rename_i ref _ found
      obtain ⟨-, r, there, rfl⟩ := guid_of_found found
      dsimp only
      split
      · have set : ∀ threat, Held (noted t) a
            (m.modify ref fun r => { r with iTempThreatModifier := threat }) := by
          refine fun threat => held.modify (fun _ => ⟨rfl, rfl⟩) fun q isThere => ?_
          obtain rfl := Option.some.inj (there.symm.trans isThere)
          exact (if_neg apart).trans (if_neg apart).symm
        rw [addTempThreat]
        split
        · exact keeps_some (set _)
        · exact adds _ ref _ (set _)
      · exact keeps_some held
    · exact keeps_some held
  | tauntFadeOut taunter =>
    have apart : taunter ≠ t := of_decide_eq_false other
    change Keeps _ (m.tauntFadeOut exactThreat around depth taunter)
    rw [tauntFadeOut]
    split
    · rename_i ref found
      obtain ⟨-, r, there, rfl⟩ := guid_of_found found
      have nothing : a ref = 0 := by
        rw [← held.2 ref, there]
        exact if_neg apart
      rw [resetTempThreat, there]
      dsimp only
      split
      · exact keeps_some held
      refine keeps_map (adds m ref _ held) fun m held => ⟨held.1.modify fun _ => ⟨rfl, rfl⟩, ?_⟩
      intro k
      rw [← held.2 k, reference_modify]
      by_cases here : k = ref
      · rw [here, update_self, held.2 ref, nothing]
        cases m.reference ref with
        | none => rfl
        | some q => exact ite_self _
      · rw [update_of_ne here]
    · exact keeps_some held
  | setOnlineOfflineState ref isOnline => exact keeps_some (lined ref isOnline held)
  | updateOnlineStatus ref => exact keeps_some (stable.updated m ref held)
  | addThreatPercent ref percent => exact adds m ref _ held
  | invalidate ref =>
    exact keeps_some ((lined ref false held).modify (fun _ => ⟨rfl, rfl⟩) fun _ _ => rfl)
  | getHostilTarget => exact keeps_some ⟨held.1.getHostilTarget, held.2⟩
  | attackMe caster =>
    refine keeps_some ⟨held.1.attackMe caster, fun k => ?_⟩
    rw [← held.2 k, attackMe]
    split <;> rfl
  | addTempThreat ref threat => exact ordinary.elim
  | resetTempThreat ref => exact ordinary.elim
  | removeReference ref => exact ordinary.elim
  | clearReferences => exact ordinary.elim

theorem modify_modify {f g : HostileReference ℚ → HostileReference ℚ} :
    (m.modify ref f).modify ref g = m.modify ref (g ∘ f) := by
  simp [ThreatManager.modify, Option.map_map]

theorem held_modify {f : HostileReference ℚ → HostileReference ℚ} {a : ℚ × ℚ}
    (consistent : Consistent m)
    (keeps : ∀ r, (f r).iUnitGuid = r.iUnitGuid ∧ (f r).iOnline = r.iOnline)
    (there : m.reference ref = some r) (becomes : account t (f r) = a) :
    Held (account t) (Function.update (m.accountAt t) ref a) (m.modify ref f) := by
  refine ⟨consistent.modify keeps, fun k => ?_⟩
  rw [reference_modify]
  by_cases here : k = ref
  · rw [here, update_self, update_self, there]
    exact becomes
  · rw [update_of_ne here, update_of_ne here]
    rfl

theorem dueAt_of_held {a : ℚ × ℚ} (held : Held (account t) (Function.update (m.accountAt t) ref a) m')
    (same : a.1 - a.2 = m.dueAt t ref) (k : Nat) : m'.dueAt t k = m.dueAt t k := by
  have isAccount : m'.accountAt t k = Function.update (m.accountAt t) ref a k := held.2 k
  rw [dueAt, isAccount]
  by_cases here : k = ref
  · rw [here, update_self, same]
  · rw [update_of_ne here]
    rfl

theorem keeps_dueAt_tauntApply (consistent : Consistent m) (still : Still around) :
    Keeps (fun m' => ∀ k, m'.dueAt t k = m.dueAt t k) (m.tauntApply exactThreat around depth t) := by
  rw [tauntApply.eq_def]
  split
  · rename_i ref _ found
    obtain ⟨-, r, there, rfl⟩ := guid_of_found found
    dsimp only
    split
    · rename_i weaker
      rw [Bool.and_eq_true, there] at weaker
      have unused : r.iTempThreatModifier = 0 := of_decide_eq_true weaker.2
      have due : m.dueAt r.iUnitGuid ref = r.iThreat := by
        rw [dueAt, accountAt_some there, account, if_pos rfl, unused, sub_zero]
      rw [addTempThreat]
      generalize exactThreat.sub _ _ = threat
      split
      · rename_i isZero
        have none : threat = 0 := of_decide_eq_true isZero
        refine keeps_some (dueAt_of_held (a := (r.iThreat, threat))
          (held_modify consistent (fun _ => ⟨rfl, rfl⟩) there ?_) ?_)
        · rw [account, if_pos rfl]
        · rw [due, none, sub_zero]
      · have held : Held (account r.iUnitGuid)
            (Function.update (m.accountAt r.iUnitGuid) ref (r.iThreat + threat, threat))
            ((m.modify ref fun r => { r with iTempThreatModifier := threat }).modify ref fun r =>
              { r with iThreat := exactThreat.add r.iThreat threat }) := by
          rw [modify_modify]
          refine held_modify consistent (fun _ => ⟨rfl, rfl⟩) there ?_
          exact Prod.ext rfl (if_pos rfl)
        refine fun m' isIt => dueAt_of_held
          (keeps_addToRef (stable_account still _) depth _ ref threat held m' isIt) ?_
        rw [due, add_sub_cancel_right]
    · exact keeps_some fun _ => rfl
  · exact keeps_some fun _ => rfl

theorem held_resetTempThreat (consistent : Consistent m) (still : Still around)
    (there : m.reference ref = some r) (isTaunter : r.iUnitGuid = t) :
    Keeps (Held (account t)
      (Function.update (m.accountAt t) ref (r.iThreat - r.iTempThreatModifier, 0)))
      (m.resetTempThreat exactThreat around depth ref) := by
  rw [resetTempThreat, there]
  dsimp only
  split
  · rename_i isZero
    have none : r.iTempThreatModifier = 0 := of_decide_eq_true isZero
    refine keeps_some ⟨consistent, fun k => ?_⟩
    have same : m.accountAt t ref = (r.iThreat - r.iTempThreatModifier, 0) := by
      rw [accountAt_some there, account, if_pos isTaunter, none, sub_zero]
    rw [← same, Function.update_eq_self]
    rfl
  · rename_i noted
    have taken : Held (account t) (Function.update (m.accountAt t) ref
        (r.iThreat - r.iTempThreatModifier, r.iTempThreatModifier))
        (m.modify ref fun q => { q with
          iThreat := exactThreat.add q.iThreat (exactThreat.sub 0 r.iTempThreatModifier) }) := by
      refine held_modify consistent (fun _ => ⟨rfl, rfl⟩) there (Prod.ext ?_ (if_pos isTaunter))
      change r.iThreat + (0 - r.iTempThreatModifier) = _
      rw [zero_sub, sub_eq_add_neg]
    refine keeps_map (keeps_addToRef (stable_account still _) depth m ref _ taken) fun m₁ held =>
      ⟨held.1.modify fun _ => ⟨rfl, rfl⟩, fun k => ?_⟩
    rw [reference_modify]
    by_cases here : k = ref
    · have before := held.2 ref
      rw [update_self] at before
      rw [here, update_self, update_self]
      cases left : m₁.reference ref with
      | none =>
        rw [left] at before
        have isZero : 0 = r.iTempThreatModifier := congrArg Prod.snd before
        exact absurd (decide_eq_true isZero.symm) noted
      | some q =>
        rw [left] at before
        have threat : q.iThreat = r.iThreat - r.iTempThreatModifier := congrArg Prod.fst before
        exact Prod.ext threat (ite_self _)
    · rw [update_of_ne here, update_of_ne here, held.2 k, update_of_ne here]

theorem keeps_dueAt_tauntFadeOut (consistent : Consistent m) (still : Still around) :
    Keeps (fun m' => ∀ k, m'.dueAt t k = m.dueAt t k)
      (m.tauntFadeOut exactThreat around depth t) := by
  rw [tauntFadeOut]
  split
  · rename_i ref found
    obtain ⟨-, r, there, isTaunter⟩ := guid_of_found found
    refine fun m' isIt => dueAt_of_held (held_resetTempThreat consistent still there isTaunter m' isIt) ?_
    rw [dueAt, accountAt_some there, account, if_pos isTaunter, sub_zero]
  · exact keeps_some fun _ => rfl

theorem noted_tauntFadeOut (consistent : Consistent m) (still : Still around) :
    Keeps (fun m' => (∀ k, (m'.accountAt t k).2 = 0) ↔ ∀ k r, m.reference k = some r →
      r.iUnitGuid = t → k ∈ m.onlineList ∨ r.iTempThreatModifier = 0)
      (m.tauntFadeOut exactThreat around depth t) := by
  rw [tauntFadeOut]
  split
  · rename_i ref found
    obtain ⟨isOnline, r, there, isTaunter⟩ := guid_of_found found
    have only : ∀ k q, m.reference k = some q → q.iUnitGuid = t → k = ref :=
      fun k q isQ same => consistent.one k ref q r isQ there (same.trans isTaunter.symm)
    refine fun m' isIt => iff_of_true (fun k => ?_) fun k q isQ same =>
      Or.inl (only k q isQ same ▸ isOnline)
    have isAccount : m'.accountAt t k = _ :=
      (held_resetTempThreat consistent still there isTaunter m' isIt).2 k
    rw [isAccount]
    by_cases here : k = ref
    · rw [here, update_self]
    rw [update_of_ne here, accountAt]
    cases isThere : m.reference k with
    | none => rfl
    | some q => exact if_neg fun same => here (only k q isThere same)
  · rename_i notFound
    have notOnline : ∀ k r, m.reference k = some r → r.iUnitGuid = t → k ∉ m.onlineList := by
      intro k r there isTaunter isOnline
      have other := List.find?_eq_none.mp notFound k isOnline
      rw [there, any_some, isTaunter, decide_eq_true rfl] at other
      exact other rfl
    refine keeps_some ⟨fun nothing k r there isTaunter => Or.inr ?_, fun cleared k => ?_⟩
    · rw [← nothing k, accountAt_some there, account, if_pos isTaunter]
    rw [accountAt]
    rcases there : m.reference k with _ | r
    · rfl
    by_cases isTaunter : r.iUnitGuid = t
    · exact (if_pos isTaunter).trans
        ((cleared k r there isTaunter).resolve_left (notOnline k r there isTaunter))
    · exact if_neg isTaunter

theorem ledger_run (inputs : List (Battlefield ℚ × Nat × Op ℚ)) : ∀ m : ThreatManager ℚ,
    (∀ input ∈ inputs, input.2.2.Ordinary ∧ Still input.1) → Consistent m →
    run exactThreat m inputs = some m' →
    m'.dueAt t k = m.dueAt t k + addedTo t k m inputs := by
  induction inputs with
  | nil =>
    intro m _ _ returned
    rw [addedTo, add_zero, Option.some.inj returned]
  | cons input rest ih =>
    obtain ⟨around, depth, op⟩ := input
    intro m proper consistent returned
    obtain ⟨m₁, isIt, returned⟩ := Option.bind_eq_some_iff.mp returned
    obtain ⟨ordinary, still⟩ := proper _ List.mem_cons_self
    rw [ih m₁ (fun input isIn => proper input (List.mem_cons_of_mem _ isIn))
      (consistent_perform consistent depth op m₁ isIt) returned, addedTo, isIt, elim_some, ← add_assoc]
    refine congrArg (· + _) ?_
    cases taunts : op.taunts t with
    | true =>
      rw [if_pos rfl, add_zero]
      cases op with
      | tauntApply taunter =>
        obtain rfl := of_decide_eq_true taunts
        exact keeps_dueAt_tauntApply consistent still m₁ isIt k
      | tauntFadeOut taunter =>
        obtain rfl := of_decide_eq_true taunts
        exact keeps_dueAt_tauntFadeOut consistent still m₁ isIt k
      | _ => cases taunts
    | false =>
      have held : Held (noted t) (fun k => (m.accountAt t k).2) m :=
        ⟨consistent, fun k => accountAt_snd.symm⟩
      have same := (keeps_noted held ordinary taunts m₁ isIt).2 k
      rw [← accountAt_snd] at same
      rw [if_neg Bool.false_ne_true, dueAt, dueAt, same, accountAt_fst, accountAt_fst]
      ring

theorem noted_run {a : Nat → ℚ} (inputs : List (Battlefield ℚ × Nat × Op ℚ)) :
    ∀ m : ThreatManager ℚ, (∀ input ∈ inputs, input.2.2.Ordinary ∧ input.2.2.taunts t = false) →
    Held (noted t) a m → Keeps (Held (noted t) a) (run exactThreat m inputs) := by
  induction inputs with
  | nil => exact fun m _ held => keeps_some held
  | cons input rest ih =>
    obtain ⟨around, depth, op⟩ := input
    intro m proper held
    obtain ⟨ordinary, other⟩ := proper _ List.mem_cons_self
    exact keeps_bind (keeps_noted held ordinary other) fun m held =>
      ih m (fun input isIn => proper input (List.mem_cons_of_mem _ isIn)) held

theorem run_append {F : Type} {ops : FloatOps F} (xs ys : List (Battlefield F × Nat × Op F)) :
    ∀ m, run ops m (xs ++ ys) = (run ops m xs).bind (run ops · ys) := by
  induction xs with
  | nil => exact fun m => rfl
  | cons x xs ih =>
    intro m
    rw [List.cons_append, run, run, Option.bind_assoc]
    exact congrArg _ (funext ih)

/-- **What a taunt leaves**: after the last end of a taunt of `t`, its threat is what was added by
other means if it was online then, or nothing was noted. -/
theorem residue_iff {before after : List (Battlefield ℚ × Nat × Op ℚ)}
    (proper : ∀ input ∈ before ++ (around, depth, .tauntFadeOut t) :: after,
      input.2.2.Ordinary ∧ Still input.1) (last : ∀ input ∈ after, input.2.2.taunts t = false)
    (reached : run exactThreat empty before = some m)
    (returned : run exactThreat empty (before ++ (around, depth, .tauntFadeOut t) :: after) =
      some m') :
    (∀ k, m'.guidAt k = some t → m'.getThreat exactThreat k =
      addedTo t k empty (before ++ (around, depth, .tauntFadeOut t) :: after)) ↔
    ∀ k r, m.reference k = some r → r.iUnitGuid = t →
      k ∈ m.onlineList ∨ r.iTempThreatModifier = 0 := by
  have consistent : Consistent m := consistent_run exactThreat before m reached
  have ledger : ∀ k, m'.getThreat exactThreat k - (m'.accountAt t k).2 =
      addedTo t k empty (before ++ (around, depth, .tauntFadeOut t) :: after) := by
    intro k
    have due := ledger_run (t := t) (k := k) _ empty proper consistent_empty returned
    have noDue : dueAt t empty k = 0 := sub_self 0
    rw [dueAt, accountAt_fst, noDue, zero_add] at due
    exact due
  rw [run_append, reached, bind_some] at returned
  obtain ⟨m₁, isIt, returned⟩ := Option.bind_eq_some_iff.mp returned
  obtain ⟨_, still⟩ := proper _ (List.mem_append_right _ List.mem_cons_self)
  refine Iff.trans ?_ (noted_tauntFadeOut consistent still m₁ isIt)
  have later : ∀ k, (m'.accountAt t k).2 = (m₁.accountAt t k).2 := by
    intro k
    rw [accountAt_snd]
    refine (noted_run after m₁ (fun input isIn => ⟨(proper input ?_).1, last input isIn⟩)
      ⟨consistent_perform consistent depth _ m₁ isIt, fun k => accountAt_snd.symm⟩ m' returned).2 k
    exact List.mem_append_right _ (List.mem_cons_of_mem _ isIn)
  constructor
  · intro exact' k
    rw [← later k]
    rcases there : m'.reference k with _ | r
    · rw [accountAt, there]; rfl
    rw [accountAt_some there]
    by_cases isTaunter : r.iUnitGuid = t
    · have noResidue := exact' k (by rw [guidAt, there, map_some, isTaunter])
      rw [← ledger k, accountAt_some there] at noResidue
      linarith
    · exact if_neg isTaunter
  · intro nothing k _
    rw [← ledger k, later k, nothing k, sub_zero]

/-- The open field, for threat in rational numbers -/
def clearField : Battlefield ℚ where
  owner := 1
  ownerAlive := true
  unit := fun guid => { openField.unit guid with applyTotalThreatModifier := fun _ threat => threat }
  getUnit := fun _ => true

/-- Unit 4 taunts with half the threat of unit 2, and goes offline. -/
def tauntedRun : List (Battlefield ℚ × Nat × Op ℚ) :=
  [(clearField, 3, .addThreat 2 100 1 none), (clearField, 3, .addThreat 4 50 1 none),
    (clearField, 3, .getHostilTarget), (clearField, 3, .tauntApply 4),
    (clearField, 3, .setOnlineOfflineState 1 false)]

theorem residue_iff_of_tauntedRun : ∃ m m', run exactThreat empty tauntedRun = some m ∧
    run exactThreat empty (tauntedRun ++ [(clearField, 3, .tauntFadeOut 4)]) = some m' ∧
    ((∀ k, m'.guidAt k = some 4 → m'.getThreat exactThreat k =
      addedTo 4 k empty (tauntedRun ++ [(clearField, 3, .tauntFadeOut 4)])) ↔
    ∀ k r, m.reference k = some r → r.iUnitGuid = 4 →
      k ∈ m.onlineList ∨ r.iTempThreatModifier = 0) := by
  have reached : (run exactThreat empty tauntedRun).isSome = true := by decide +kernel
  have returned : (run exactThreat empty
      (tauntedRun ++ [(clearField, 3, .tauntFadeOut 4)])).isSome = true := by decide +kernel
  obtain ⟨m, isM⟩ := Option.isSome_iff_exists.mp reached
  obtain ⟨m', isM'⟩ := Option.isSome_iff_exists.mp returned
  have still : Still clearField := fun _ => rfl
  refine ⟨m, m', isM, isM', residue_iff ?_ (List.forall_mem_nil _) isM isM'⟩
  simp [tauntedRun, Op.Ordinary, still]

/-- The threat of the taunt is still there when the taunt has ended. -/
theorem residue_of_offline : ∃ m,
    run exactThreat empty (tauntedRun ++ [(clearField, 3, .tauntFadeOut 4)]) = some m ∧
    m.guidAt 1 = some 4 ∧ m.getThreat exactThreat 1 = 100 ∧
    addedTo 4 1 empty (tauntedRun ++ [(clearField, 3, .tauntFadeOut 4)]) = 50 := by
  have left : ((run exactThreat empty (tauntedRun ++ [(clearField, 3, .tauntFadeOut 4)])).map
      fun m => (m.guidAt 1, m.getThreat exactThreat 1)) = some (some 4, 100) := by decide +kernel
  obtain ⟨m, isM, same⟩ := Option.map_eq_some_iff.mp left
  obtain ⟨guid, threat⟩ := Prod.mk.inj same
  exact ⟨m, isM, guid, threat, by decide +kernel⟩

end ThreatManager

end Sky548
