import Sky548.Lfg.BestCompatible
import Sky548.Lfg.Proposal

/-!
# The queue refines its search

What is kept for telling players has no influence on who is matched: forgotten, every run is one of
the search.
-/

namespace Sky548.LFGBestQueue

open OrdMap

/-- What an input is to the search; of the timers it knows nothing. -/
def Input.plain : Input → List LfgEvent
  | .addQueueData guid data => [.addQueueData guid data]
  | .findGroups env => [.findGroups env]
  | .removeFromQueue guid => [.removeFromQueue guid]
  | .updateQueueTimers => []

variable {q : LFGBestQueue}

theorem plain_addQueueData (guid : UInt64) (data : LfgQueueData) :
    (q.addQueueData guid data).plain =
      { q.plain with queue := q.plain.queue.addQueueData guid data } := by
  have store : (q.queueDataStore.insert guid (.new data)).mapVal (fun _ entry => entry.data) =
      (q.queueDataStore.mapVal fun _ entry => entry.data).insert guid data := by
    apply ext_mem
    rintro ⟨other, data'⟩
    simp only [mem_mapVal, mem_insert, Prod.mk.injEq]
    constructor
    · rintro ⟨entry, ⟨rfl, rfl⟩ | ⟨isOld, apart⟩, rfl⟩
      · exact Or.inl ⟨rfl, rfl⟩
      · exact Or.inr ⟨⟨entry, isOld, rfl⟩, apart⟩
    · rintro (⟨rfl, rfl⟩ | ⟨⟨entry, isOld, rfl⟩, apart⟩)
      · exact ⟨.new data', Or.inl ⟨rfl, rfl⟩, rfl⟩
      · exact ⟨entry, Or.inr ⟨isOld, apart⟩, rfl⟩
  unfold LFGQueue.addQueueData LFGQueue.addToQueue
  rw [find?_insert, if_pos rfl]
  unfold plain addQueueData
  rw [store]
  rfl

theorem plain_updateQueueTimers : q.updateQueueTimers.plain = q.plain := by
  unfold plain updateQueueTimers
  congr 2
  apply ext_mem
  rintro ⟨guid, data⟩
  simp only [mem_mapVal]
  constructor
  · rintro ⟨_, ⟨entry, member, rfl⟩, rfl⟩
    refine ⟨entry, member, ?_⟩
    split
    · exact (data_findBestCompatible _ _ _).symm
    · rfl
  · rintro ⟨entry, member, rfl⟩
    refine ⟨_, ⟨entry, member, rfl⟩, ?_⟩
    split
    · exact data_findBestCompatible _ _ _
    · rfl

/-- **Every run is one of the search.** -/
theorem plain_run (inputs : List Input) : ∀ q : LFGBestQueue, (Machine.run step q inputs).plain =
    Machine.run LfgSearch.step q.plain (inputs.flatMap Input.plain) := by
  induction inputs with
  | nil => exact fun _ => rfl
  | cons input rest ih =>
    intro q
    rw [Machine.run_cons, ih, List.flatMap_cons, Machine.run, Machine.run, List.foldl_append]
    congr 1
    cases input with
    | addQueueData guid data => exact plain_addQueueData guid data
    | findGroups env => exact congrArg Prod.fst (plain_findGroups q)
    | removeFromQueue guid => exact plain_removeFromQueue guid
    | updateQueueTimers => exact plain_updateQueueTimers

end Sky548.LFGBestQueue
