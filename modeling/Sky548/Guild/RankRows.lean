import Sky548.Guild.Ranks

/-!
# Rows of ranks

A rank gets into `guild_rank` in two ways: `RankInfo::SaveToDB` for a new one, and
`_UpdateGuildRanksDB` for all of a guild. Both bind the parameters of one statement by
their index, `RankInfo::LoadFromDB` reads the columns by theirs.
-/

namespace Sky548

/-- `PreparedStatementData`, of the types that ranks use. -/
inductive SqlValue
  | uint8 (value : UInt8)
  | uint32 (value : UInt32)
  | string (value : String)
  deriving DecidableEq

abbrev StatementData := List (Option SqlValue)

namespace StatementData

/-- `setUInt8`, `setUInt32` and `setString`: the data grow to the index if they have to. -/
def setValue (data : StatementData) (index : Nat) (value : SqlValue) : StatementData :=
  (data ++ List.replicate (index + 1 - data.length) none).set index (some value)

/-- The columns of the row that is inserted. What a database makes of a parameter that is not bound
is left open: `unbound`, `none` where it takes no such row. -/
def row (data : StatementData) (unbound : Nat → Option SqlValue) (index : Nat) : Option SqlValue :=
  match data[index]? with
  | some (some value) => some value
  | _ => unbound index

end StatementData

/-- `RankInfo` with the guild it belongs to and its money limit. -/
structure RankRecord extends RankInfo where
  guildId : UInt32
  bankMoneyPerDay : UInt32
  deriving DecidableEq

namespace RankRecord

variable (r : RankRecord)

def saveToDB : StatementData :=
  let stmt : StatementData := []
  let stmt := stmt.setValue 0 (.uint32 r.guildId)
  let stmt := stmt.setValue 1 (.uint8 r.rankId)
  let stmt := stmt.setValue 2 (.string r.name)
  let stmt := stmt.setValue 3 (.uint32 r.rights)
  stmt.setValue 3 (.uint32 r.bankMoneyPerDay)

def updateGuildRanksDB : StatementData :=
  let stmt : StatementData := []
  let stmt := stmt.setValue 0 (.uint32 r.guildId)
  let stmt := stmt.setValue 1 (.uint8 r.rankId)
  let stmt := stmt.setValue 2 (.string r.name)
  let stmt := stmt.setValue 3 (.uint32 r.rights)
  stmt.setValue 4 (.uint32 r.bankMoneyPerDay)

/-- The rank that `LoadFromDB` reads from the columns guildid, rid, rname, rights and
BankMoneyPerDay. -/
def ofFields (fields : Nat → Option SqlValue) : Option RankRecord :=
  match fields 0, fields 1, fields 2, fields 3, fields 4 with
  | some (.uint32 guildId), some (.uint8 rankId), some (.string name), some (.uint32 rights),
      some (.uint32 bankMoneyPerDay) =>
      some
        { toRankInfo := RankInfo.loadFromDB ⟨rankId, name, rights⟩
          guildId := guildId
          bankMoneyPerDay := bankMoneyPerDay }
  | _, _, _, _, _ => none

/-- The rank as it is to come back: the guild master's has every right. -/
def restored : RankRecord := { r with toRankInfo := r.toRankInfo.loadFromDB }

def readBack (unbound : Nat → Option SqlValue) (data : StatementData) : Option RankRecord :=
  ofFields (data.row unbound)

/-- **A rank is saved**: it comes back from what `SaveToDB` binds, and that is what
`_UpdateGuildRanksDB` binds. -/
structure Saved (unbound : Nat → Option SqlValue) : Prop where
  roundTrip : readBack unbound r.saveToDB = some r.restored
  sameRow : r.saveToDB = r.updateGuildRanksDB

/-- The money limit is bound over the rights, and nothing in its own place. -/
theorem saveToDB_eq : r.saveToDB =
    [some (.uint32 r.guildId), some (.uint8 r.rankId), some (.string r.name),
      some (.uint32 r.bankMoneyPerDay)] := by
  simp [saveToDB, StatementData.setValue]

theorem updateGuildRanksDB_eq : r.updateGuildRanksDB =
    [some (.uint32 r.guildId), some (.uint8 r.rankId), some (.string r.name),
      some (.uint32 r.rights), some (.uint32 r.bankMoneyPerDay)] := by
  simp [updateGuildRanksDB, StatementData.setValue]

variable (unbound : Nat → Option SqlValue)

/-- **No rank is saved**, whatever becomes of the parameter that is not bound. -/
theorem not_saved : ¬ r.Saved unbound := by
  intro saved
  have same := congrArg List.length saved.sameRow
  rw [saveToDB_eq, updateGuildRanksDB_eq] at same
  exact absurd (show 4 = 5 from same) (by decide)

/-- The default rank of officers, where the column that is not bound becomes 0. -/
def officers : RankRecord := ⟨⟨1, "Officer", grRightAll⟩, 1, 0⟩

theorem not_saved_officers : readBack (fun _ => some (.uint32 0)) officers.saveToDB =
        some ⟨⟨1, "Officer", 0⟩, 1, 0⟩ ∧
      ¬ officers.Saved fun _ => some (.uint32 0) := by
  have lost : readBack (fun _ => some (.uint32 0)) officers.saveToDB =
      some ⟨⟨1, "Officer", 0⟩, 1, 0⟩ := by decide
  refine ⟨lost, fun saved => ?_⟩
  have same := lost.symm.trans saved.roundTrip
  revert same
  decide

end RankRecord

end Sky548
