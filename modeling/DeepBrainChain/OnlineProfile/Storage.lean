import DeepBrainChain.Committee
import DeepBrainChain.Support.Machine

/-!
# Storage of the online-profile pallet

The pallet registers machines, holds the stakes of their owners, keeps two eras of grade
snapshots for the distribution of rewards, and slashes stashes whose machines fail. The storage
items are grouped by what they are about, so that a function names the group it writes.
-/

namespace DeepBrainChain.OnlineProfile

open Lib GenericFunc Support

/-! ## Records -/

structure OnlineStakeParamsInfo where
  onlineStakePerGpu : Nat
  onlineStakeUsdLimit : Nat
  reonlineStake : Nat
  slashReviewStake : Nat

structure StandardGpuPointPrice where
  gpuPoint : Nat
  gpuPrice : Nat

structure PhaseRewardInfoDetail where
  onlineRewardStartEra : Nat
  firstPhaseDuration : Nat
  galaxyOnEra : Nat
  phase0RewardPerEra : Nat
  phase1RewardPerEra : Nat
  phase2RewardPerEra : Nat

def PhaseRewardInfoDetail.zero : PhaseRewardInfoDetail := ⟨0, 0, 0, 0, 0, 0⟩

/-- `UserMutHardwareStakeInfo`: what is staked while the hardware of a machine is changed. -/
structure UserMutHardwareStakeInfo where
  verifyFee : Nat
  offlineSlash : Nat
  offlineTime : Nat
  needFulfilling : Bool

def UserMutHardwareStakeInfo.zero : UserMutHardwareStakeInfo := ⟨0, 0, 0, false⟩

def UserMutHardwareStakeInfo.total (i : UserMutHardwareStakeInfo) : Nat :=
  i.verifyFee + i.offlineSlash

structure SysInfoDetail where
  totalGpuNum : Nat
  totalRentedGpu : Nat
  totalStaker : Nat
  totalCalcPoints : Nat
  totalStake : Nat
  totalRentFee : Nat
  totalBurnFee : Nat

namespace SysInfoDetail

def zero : SysInfoDetail := ⟨0, 0, 0, 0, 0, 0, 0⟩

def setTotalStake (i : SysInfoDetail) (amount : Nat) : SysInfoDetail :=
  { i with totalStake := amount }

def onStakeChanged (i : SysInfoDetail) (amount : Nat) (isAdd : Bool) : SysInfoDetail :=
  i.setTotalStake (saturatingChange u128Max i.totalStake amount isAdd)

def changeRentFee (i : SysInfoDetail) (feeToDestroy feeToStash : Nat) : SysInfoDetail :=
  { i with
    totalBurnFee := saturatingAdd u128Max i.totalBurnFee feeToDestroy
    totalRentFee := saturatingAdd u128Max i.totalRentFee feeToStash }

end SysInfoDetail

structure PosInfo where
  onlineGpu : Nat
  offlineGpu : Nat
  rentedGpu : Nat
  onlineGpuCalcPoints : Nat
deriving DecidableEq

def PosInfo.zero : PosInfo := ⟨0, 0, 0, 0⟩

structure StashMachineStatistics where
  onlineGpuNum : Nat
  inflation : Perbill
  machineTotalCalcPoint : Nat
  rentExtraGrade : Nat

def StashMachineStatistics.zero : StashMachineStatistics := ⟨0, .zero, 0, 0⟩

structure MachineGradeStatus where
  basicGrade : Nat
  isRented : Bool

structure EraStashPoints (A : Type) where
  total : Nat
  stakerStatistic : StorageMap A StashMachineStatistics

def EraStashPoints.zero {A : Type} : EraStashPoints A := ⟨0, ∅⟩

structure MachineRecentRewardInfo (A : Type) where
  machineStash : A
  recentMachineReward : List Nat
  recentRewardSum : Nat
  rewardCommitteeDeadline : Nat
  rewardCommittee : List A

/-! ## Storage -/

structure Machines (A : Type) [LinearOrder A] where
  machinesInfo : StorageMap MachineId (MachineInfo A)
  machineRentedGpu : StorageMap MachineId Nat
  liveMachines : LiveMachine
  rentedFinished : StorageMap MachineId A
  offlineMachine2renters : StorageMap MachineId (List A)
  posGpuInfo : StorageMap (Longitude × Latitude) PosInfo

structure Owners (A : Type) where
  stashController : StorageMap A A
  controllerStash : StorageMap A A
  controllerMachines : StorageMap A (SortedVec MachineId)
  stashServerRooms : StorageMap A (SortedVec Nat)
  authorizedForceExitAccounts : List A

structure Eras (A : Type) where
  currentEra : Nat
  erasStashPoints : StorageMap Nat (EraStashPoints A)
  erasMachinePoints : StorageMap Nat (StorageMap MachineId MachineGradeStatus)

/-- The era snapshots and the statistics that follow them. -/
structure Grades (A : Type) where
  eras : Eras A
  stashMachines : StorageMap A StashMachine
  sysInfo : SysInfoDetail
  rentFeeDestroyPercent : Perbill
  phaseRewardInfo : Option PhaseRewardInfoDetail

structure Stakes (A : Type) where
  onlineStakeParams : Option OnlineStakeParamsInfo
  standardGpuPointPrice : Option StandardGpuPointPrice
  stashStake : StorageMap A Nat
  userMutHardwareStake : StorageMap (A × MachineId) UserMutHardwareStakeInfo

/-- The slashes that wait, their reviews, and the blocks they wait for. -/
structure Slashes (A : Type) where
  nextSlashId : Nat
  pendingSlash : StorageMap Nat (OPPendingSlashInfo A)
  pendingSlashReview : StorageMap Nat (OPPendingSlashReviewInfo A)
  pendingSlashReviewChecking : StorageMap Nat (SortedVec Nat)
  pendingExecSlash : StorageMap Nat (SortedVec Nat)
  maxSlashExeced : StorageMap MachineId Nat
  machine2PendingSlashIds : StorageMap MachineId (SortedVec Nat)

structure Rewards (A : Type) where
  eraReward : StorageMap Nat Nat
  erasMachineReward : StorageMap (Nat × MachineId) Nat
  erasMachineReleasedReward : StorageMap (Nat × MachineId) Nat
  erasStashReward : StorageMap (Nat × A) Nat
  erasStashReleasedReward : StorageMap (Nat × A) Nat
  machineRecentReward : StorageMap MachineId (MachineRecentRewardInfo A)
  allMachineIdSnap : List MachineId
  snapLen : Nat

structure State (A : Type) [LinearOrder A] extends toCommittee : Committee.State A where
  machines : Machines A
  owners : Owners A
  grades : Grades A
  stakes : Stakes A
  slashes : Slashes A
  rewards : Rewards A

inductive Error
  | badSignature
  | machineIdExist
  | balanceNotEnough
  | notMachineController
  | payTxFeeFailed
  | claimRewardFailed
  | convertMachineIdToWalletFailed
  | noStashBond
  | alreadyController
  | noStashAccount
  | badMsgLen
  | notAllowedChangeMachineInfo
  | machineStashNotEqualControllerStash
  | calcStakeAmountFailed
  | sigMachineIdNotEqualBondedMachineId
  | telecomIsNull
  | machineStatusNotAllowed
  | serverRoomNotFound
  | tooFastToReStake
  | noStakeToReduce
  | reduceStakeFailed
  | getReonlineStakeFailed
  | slashIdNotExist
  | timeNotAllowed
  | expiredSlash
  | unknown
  | claimThenFulfillFailed
  | notAuthorized

/-! ## Writes -/

section

variable {A : Type} [LinearOrder A]

namespace Machines

def putInfo (x : Machines A) (m : MachineId) (i : MachineInfo A) : Machines A :=
  { x with machinesInfo := x.machinesInfo.insert m i }

def rmInfo (x : Machines A) (m : MachineId) : Machines A :=
  { x with machinesInfo := x.machinesInfo.remove m }

def setRentedGpu (x : Machines A) (m : MachineId) (n : Nat) : Machines A :=
  { x with machineRentedGpu := x.machineRentedGpu.insert m n }

def mapLive (x : Machines A) (f : LiveMachine → LiveMachine) : Machines A :=
  { x with liveMachines := f x.liveMachines }

def putRentedFinished (x : Machines A) (m : MachineId) (renter : A) : Machines A :=
  { x with rentedFinished := x.rentedFinished.insert m renter }

def rmRentedFinished (x : Machines A) (m : MachineId) : Machines A :=
  { x with rentedFinished := x.rentedFinished.remove m }

def putOfflineRenters (x : Machines A) (m : MachineId) (renters : List A) : Machines A :=
  { x with offlineMachine2renters := x.offlineMachine2renters.insert m renters }

def putPos (x : Machines A) (pos : Longitude × Latitude) (i : PosInfo) : Machines A :=
  { x with posGpuInfo := x.posGpuInfo.insert pos i }

def rmPos (x : Machines A) (pos : Longitude × Latitude) : Machines A :=
  { x with posGpuInfo := x.posGpuInfo.remove pos }

def rentedGpu (x : Machines A) (m : MachineId) : Nat := x.machineRentedGpu.getD m 0

end Machines

namespace State

/-- The storage before the first machine, over the storage `c` of the committee pallet. -/
def fresh (c : Committee.State A) : State A where
  toCommittee := c
  machines := ⟨∅, ∅, .zero, ∅, ∅, ∅⟩
  owners := ⟨∅, ∅, ∅, ∅, []⟩
  grades := ⟨⟨0, ∅, ∅⟩, ∅, .zero, .fromPercent 30, none⟩
  stakes := ⟨none, none, ∅, ∅⟩
  slashes := ⟨0, ∅, ∅, ∅, ∅, ∅, ∅⟩
  rewards := ⟨∅, ∅, ∅, ∅, ∅, ∅, [], 0⟩

def setBalances (s : State A) (b : Balances A) : State A := { s with balances := b }

def setCommitteeState (c : Committee.State A) (s : State A) : State A :=
  { s with toCommittee := c }

def mapMachines (s : State A) (f : Machines A → Machines A) : State A :=
  { s with machines := f s.machines }

def mapOwners (s : State A) (f : Owners A → Owners A) : State A :=
  { s with owners := f s.owners }

def mapGrades (s : State A) (f : Grades A → Grades A) : State A :=
  { s with grades := f s.grades }

def mapStakes (s : State A) (f : Stakes A → Stakes A) : State A :=
  { s with stakes := f s.stakes }

def mapSlashes (s : State A) (f : Slashes A → Slashes A) : State A :=
  { s with slashes := f s.slashes }

def mapRewards (s : State A) (f : Rewards A → Rewards A) : State A :=
  { s with rewards := f s.rewards }

def machine (s : State A) (m : MachineId) : Option (MachineInfo A) := s.machines.machinesInfo.get m

def putMachine (s : State A) (m : MachineId) (i : MachineInfo A) : State A :=
  s.mapMachines fun x => x.putInfo m i

def mapLive (s : State A) (f : LiveMachine → LiveMachine) : State A :=
  s.mapMachines fun x => x.mapLive f

def stashStake (s : State A) (who : A) : Nat := s.stakes.stashStake.getD who 0

def setStashStake (s : State A) (who : A) (amount : Nat) : State A :=
  s.mapStakes fun x => { x with stashStake := x.stashStake.insert who amount }

def mapSysInfo (s : State A) (f : SysInfoDetail → SysInfoDetail) : State A :=
  s.mapGrades fun x => { x with sysInfo := f x.sysInfo }

def putStashMachine (s : State A) (who : A) (i : StashMachine) : State A :=
  s.mapGrades fun x => { x with stashMachines := x.stashMachines.insert who i }

def stashMachine (s : State A) (who : A) : StashMachine := s.grades.stashMachines.getD who .zero

def putMutHardware (s : State A) (who : A) (m : MachineId) (i : UserMutHardwareStakeInfo) :
    State A :=
  s.mapStakes fun x => { x with userMutHardwareStake := x.userMutHardwareStake.insert (who, m) i }

def rmMutHardware (s : State A) (who : A) (m : MachineId) : State A :=
  s.mapStakes fun x => { x with userMutHardwareStake := x.userMutHardwareStake.remove (who, m) }

def putRecentReward (s : State A) (m : MachineId) (i : MachineRecentRewardInfo A) : State A :=
  s.mapRewards fun x => { x with machineRecentReward := x.machineRecentReward.insert m i }

end State

/-! # Grade snapshots and regional statistics

A machine is graded twice: `ErasMachinePoints` holds its own grade in an era and
`ErasStashPoints` the sums of its stash. A machine that comes online or is rented counts from the
next era on; one that goes offline or ends its rental loses the current era as well. -/

/-! ## The grades of a stash -/

def StashMachineStatistics.totalGrades (x : StashMachineStatistics) : Option Nat :=
  (checkedAdd u64Max (x.inflation.mul x.machineTotalCalcPoint) x.machineTotalCalcPoint).bind
    fun n => checkedAdd u64Max n x.rentExtraGrade

/-- What a rented machine earns on top of its basic grade. -/
def gradeOnRent (basicGrade : Nat) : Nat := (Perbill.fromRational 30 100).mul basicGrade

namespace StashMachineStatistics

/-- The statistics after a machine of the stash came online or went offline. -/
def onOnlineChanged (x : StashMachineStatistics) (gpuNum basicGrade : Nat) (isOnline : Bool) :
    StashMachineStatistics :=
  let gpus := saturatingChange u64Max x.onlineGpuNum gpuNum isOnline
  { x with
    onlineGpuNum := gpus
    inflation := Perbill.fromRational (min gpus 1000) 10000
    machineTotalCalcPoint := saturatingChange u64Max x.machineTotalCalcPoint basicGrade isOnline }

/-- The statistics after a machine of the stash was rented or given back. -/
def onRentChanged (x : StashMachineStatistics) (basicGrade : Nat) (isRented : Bool) :
    StashMachineStatistics :=
  { x with
    rentExtraGrade := saturatingChange u64Max x.rentExtraGrade (gradeOnRent basicGrade) isRented }

end StashMachineStatistics

namespace EraStashPoints

omit [LinearOrder A] in
def statistic [DecidableEq A] (e : EraStashPoints A) (stash : A) : StashMachineStatistics :=
  e.stakerStatistic.getD stash .zero

/-- `EraStashPoints::on_online_changed`. A stash without cards is dropped. -/
def onOnlineChanged (e : EraStashPoints A) (stash : A) (gpuNum basicGrade : Nat)
    (isOnline : Bool) : EraStashPoints A :=
  let new := (e.statistic stash).onOnlineChanged gpuNum basicGrade isOnline
  { total := saturatingAdd u64Max e.total (new.totalGrades.getD 0) -
      (e.statistic stash).totalGrades.getD 0
    stakerStatistic :=
      if new.onlineGpuNum = 0 then e.stakerStatistic.remove stash
      else e.stakerStatistic.insert stash new }

def onRentChanged (e : EraStashPoints A) (stash : A) (basicGrade : Nat) (isRented : Bool) :
    EraStashPoints A where
  total := saturatingChange u64Max e.total (gradeOnRent basicGrade) isRented
  stakerStatistic :=
    e.stakerStatistic.insert stash ((e.statistic stash).onRentChanged basicGrade isRented)

end EraStashPoints

/-! ## The snapshots of two eras -/

namespace Eras

def stashPoints (g : Eras A) (era : Nat) : EraStashPoints A := g.erasStashPoints.getD era .zero

def machinePoints (g : Eras A) (era : Nat) : StorageMap MachineId MachineGradeStatus :=
  g.erasMachinePoints.getD era ∅

def putEra (g : Eras A) (era : Nat) (stashPoints : EraStashPoints A)
    (machinePoints : StorageMap MachineId MachineGradeStatus) : Eras A :=
  { g with
    erasStashPoints := g.erasStashPoints.insert era stashPoints
    erasMachinePoints := g.erasMachinePoints.insert era machinePoints }

def getStashGrades (g : Eras A) (era : Nat) (stash : A) : Nat :=
  match (g.stashPoints era).stakerStatistic.get stash with
  | some x => x.totalGrades.getD 0
  | none => 0

/-- The snapshots after a machine came online or went offline. The current era is only left by
a machine that is in it, and then the next era is left as well. -/
def onOnlineChanged (g : Eras A) (m : MachineId) (i : MachineInfo A) (isOnline : Bool) : Eras A :=
  let next := g.currentEra + 1
  let nextStash :=
    (g.stashPoints next).onOnlineChanged i.machineStash i.gpuNum i.calcPoint isOnline
  if isOnline then
    g.putEra next nextStash
      ((g.machinePoints next).insert m { basicGrade := i.calcPoint, isRented := false })
  else if (g.machinePoints g.currentEra).contains m then
    (g.putEra next nextStash ((g.machinePoints next).remove m)).putEra g.currentEra
      ((g.stashPoints g.currentEra).onOnlineChanged i.machineStash i.gpuNum i.calcPoint false)
      ((g.machinePoints g.currentEra).remove m)
  else
    (g.putEra next nextStash (g.machinePoints next)).putEra g.currentEra
      (g.stashPoints g.currentEra) (g.machinePoints g.currentEra)

/-- The snapshots after a machine was rented or given back. -/
def onRentChanged (g : Eras A) (m : MachineId) (i : MachineInfo A) (isRented : Bool) : Eras A :=
  let next := g.currentEra + 1
  let grade : MachineGradeStatus := { basicGrade := i.calcPoint, isRented := isRented }
  let g' := g.putEra next
    ((g.stashPoints next).onRentChanged i.machineStash i.calcPoint isRented)
    ((g.machinePoints next).insert m grade)
  if isRented then g'
  else
    let currentEraIsRented := match (g.machinePoints g.currentEra).get m with
      | some x => x.isRented
      | none => false
    g'.putEra g.currentEra
      (if currentEraIsRented then (g.stashPoints g.currentEra).onRentChanged i.machineStash
        i.calcPoint false else g.stashPoints g.currentEra)
      ((g.machinePoints g.currentEra).insert m grade)

/-- The snapshots at the start of an era: the first era starts with empty ones, every other one
hands its own on to the next. -/
def startEra (g : Eras A) : Eras A :=
  let era := g.currentEra + 1
  let g' := { g with currentEra := era }
  if era = 1 then ((g'.putEra 0 .zero ∅).putEra 1 .zero ∅).putEra 2 .zero ∅
  else g'.putEra (era + 1) (g.stashPoints era) (g.machinePoints era)

end Eras

namespace Grades

def adjustRentFeeDestroyPercent (g : Grades A) (gpuNum : Nat) : Grades A :=
  let phase := g.phaseRewardInfo.getD .zero
  let destroyPercent := Perbill.fromPercent
    (if gpuNum ≤ 4999 then 30 else if gpuNum ≤ 9999 then 70 else 100)
  { g with
    phaseRewardInfo :=
      if gpuNum = 5000 ∧ phase.galaxyOnEra = 0 then
        some { phase with galaxyOnEra := g.eras.currentEra }
      else g.phaseRewardInfo
    rentFeeDestroyPercent :=
      if g.rentFeeDestroyPercent.parts < destroyPercent.parts then destroyPercent
      else g.rentFeeDestroyPercent }

/-- Overwrite the snapshots, and the statistics of a stash and of the system. -/
def putSnap (g : Grades A) (eras : Eras A) (stash : A) (x : StashMachine) (sys : SysInfoDetail) :
    Grades A :=
  { g with eras := eras, stashMachines := g.stashMachines.insert stash x, sysInfo := sys }

/-- `update_snap_on_online_changed`, for a machine with the record `i`. -/
def updateSnapOnOnlineChanged (g : Grades A) (m : MachineId) (i : MachineInfo A)
    (isOnline : Bool) : Grades A :=
  let next := g.eras.currentEra + 1
  let stash := i.machineStash
  let eras := g.eras.onOnlineChanged m i isOnline
  let preGrade := g.eras.getStashGrades next stash
  let newGrade := eras.getStashGrades next stash
  let x := g.stashMachines.getD stash .zero
  let onlineMachine := if isOnline then x.onlineMachine.addItem m else x.onlineMachine.rmItem m
  let totalGpuNum := saturatingChange u64Max g.sysInfo.totalGpuNum i.gpuNum isOnline
  let totalStaker :=
    if isOnline then
      if onlineMachine.length = 1 then saturatingAdd u64Max g.sysInfo.totalStaker 1
      else g.sysInfo.totalStaker
    else if onlineMachine.isEmpty then g.sysInfo.totalStaker - 1
    else g.sysInfo.totalStaker
  (g.adjustRentFeeDestroyPercent totalGpuNum).putSnap eras stash
    { x with
      onlineMachine := onlineMachine
      totalGpuNum := saturatingChange u64Max x.totalGpuNum i.gpuNum isOnline
      totalCalcPoints := saturatingAdd u64Max x.totalCalcPoints newGrade - preGrade }
    { g.sysInfo with
      totalGpuNum := totalGpuNum
      totalStaker := totalStaker
      totalCalcPoints := saturatingAdd u64Max g.sysInfo.totalCalcPoints newGrade - preGrade }

/-- `update_snap_on_rent_changed`, for a machine with the record `i`. -/
def updateSnapOnRentChanged (g : Grades A) (m : MachineId) (i : MachineInfo A)
    (isRented : Bool) : Grades A :=
  let next := g.eras.currentEra + 1
  let stash := i.machineStash
  let eras := g.eras.onRentChanged m i isRented
  let preGrade := g.eras.getStashGrades next stash
  let newGrade := eras.getStashGrades next stash
  let x := g.stashMachines.getD stash .zero
  g.putSnap eras stash
    { x with
      totalRentedGpu := saturatingChange u64Max x.totalRentedGpu i.gpuNum isRented
      totalCalcPoints := saturatingAdd u64Max x.totalCalcPoints newGrade - preGrade }
    { g.sysInfo with
      totalRentedGpu := saturatingChange u64Max g.sysInfo.totalRentedGpu i.gpuNum isRented
      totalCalcPoints := saturatingAdd u64Max g.sysInfo.totalCalcPoints newGrade - preGrade }

/-- The snapshots part of `update_snap_for_new_era`. -/
def startEra (g : Grades A) : Grades A := { g with eras := g.eras.startEra }

end Grades

/-! ## Regions -/

namespace PosInfo

def onRentChanged (x : PosInfo) (isRented : Bool) (gpuNum : Nat) : PosInfo :=
  { x with rentedGpu := saturatingChange u64Max x.rentedGpu gpuNum isRented }

def onOnlineChanged (x : PosInfo) (isOnline : Bool) (gpuNum calcPoint : Nat) : PosInfo :=
  { x with
    onlineGpu := saturatingChange u64Max x.onlineGpu gpuNum isOnline
    onlineGpuCalcPoints := saturatingChange u64Max x.onlineGpuCalcPoints calcPoint isOnline
    offlineGpu := if isOnline then x.offlineGpu else saturatingAdd u64Max x.offlineGpu gpuNum }

/-- `PosInfo::on_machine_exit`, without its test. -/
def onMachineExit (x : PosInfo) (gpuNum calcPoint : Nat) : PosInfo :=
  { x with
    onlineGpu := x.onlineGpu - gpuNum
    onlineGpuCalcPoints := x.onlineGpuCalcPoints - calcPoint }

end PosInfo

namespace Machines

def posOf (x : Machines A) (i : MachineInfo A) : PosInfo :=
  x.posGpuInfo.getD (i.longitude, i.latitude) .zero

def updateRegionOnOnlineChanged (x : Machines A) (i : MachineInfo A) (isOnline : Bool) :
    Machines A :=
  x.putPos (i.longitude, i.latitude) ((x.posOf i).onOnlineChanged isOnline i.gpuNum i.calcPoint)

def updateRegionOnRentChanged (x : Machines A) (i : MachineInfo A) (isRented : Bool) :
    Machines A :=
  x.putPos (i.longitude, i.latitude) ((x.posOf i).onRentChanged isRented i.gpuNum)

def updateRegionOnExit (x : Machines A) (i : MachineInfo A) : Machines A :=
  let new := (x.posOf i).onMachineExit i.gpuNum i.calcPoint
  if new = .zero then x.rmPos (i.longitude, i.latitude)
  else x.putPos (i.longitude, i.latitude) new

end Machines

/-! # Stakes and slashes of a stash

`changeStake` is the only way stake enters or leaves with the owner's money; `slashAndReward` is
the only way it leaves as a punishment. A slash is created when a machine comes back online, or
by anybody once a fault has lasted long enough, waits two days in a queue keyed by the block of
its execution, and can be put under review meanwhile. -/

open Lib.Call

/-! ## Amounts -/

namespace State

def stakePerGpu (s : State A) : Option Nat :=
  s.stakes.onlineStakeParams.bind fun p =>
    (s.dbcPrice p.onlineStakeUsdLimit).map fun limit => min p.onlineStakePerGpu limit

def stakePerGpuV2 (s : State A) : Option Nat :=
  s.stakes.onlineStakeParams.map fun p =>
    (Perbill.fromRational 1000 100000).mul p.onlineStakePerGpu

def calMutHardwareStake (s : State A) : Option Nat :=
  s.stakes.onlineStakeParams.bind fun p => s.dbcPrice p.reonlineStake

end State

/-- `slash_percent`: how much of the stake a fault of some duration costs. -/
def slashPercent (reason : OPSlashReason) (duration : Nat) : Nat :=
  match reason with
  | .rentedReportOffline _ =>
    if duration < sevenMinutes then 2 else if duration < twoDays then 4
    else if duration < fiveDays then 30 else 50
  | .onlineReportOffline _ =>
    if duration < sevenMinutes then 2 else if duration < twoDays then 4
    else if duration < tenDays then 30 else 80
  | .rentedInaccessible _ =>
    if duration < sevenMinutes then 4 else if duration < twoDays then 8
    else if duration < fiveDays then 60 else 100
  | .rentedHardwareMalfunction _ | .onlineRentFailed _ =>
    if duration < fourHours then 6 else if duration < oneDay then 12
    else if duration < twoDays then 16 else if duration < fiveDays then 60 else 100
  | .rentedHardwareCounterfeit _ =>
    if duration < fourHours then 12 else if duration < oneDay then 24
    else if duration < twoDays then 32 else if duration < fiveDays then 60 else 100
  | _ => 0

def reachMaxSlash (reason : OPSlashReason) (duration : Nat) : Bool :=
  match reason with
  | .rentedReportOffline _ | .rentedInaccessible _ | .rentedHardwareMalfunction _
  | .rentedHardwareCounterfeit _ | .onlineRentFailed _ => decide (5 * oneDay < duration)
  | .onlineReportOffline _ => decide (10 * oneDay < duration)
  | _ => false

/-! ## Stake -/

/-- `change_stake`. A reservation fails where `can_reserve` does. -/
def changeStake (who : A) (amount : Nat) (isAdd : Bool) : Call (State A) Unit Unit := do
  let s ← get
  let stake ← okOr (checkedChange u128Max (s.stashStake who) amount isAdd) ()
  let balances ← okOr
    (if isAdd then s.balances.reserve who amount else some (s.balances.unreserve who amount).1) ()
  set (((s.setBalances balances).mapSysInfo (·.onStakeChanged amount isAdd)).setStashStake
    who stake)

/-- `slash_and_reward` of this pallet: the reserve is shared out, the records are reduced. -/
def State.slashAndReward (s : State A) (who : A) (amount : Nat) (rewardTo : List A) : State A :=
  ((s.setBalances (GenericFunc.slashAndReward s.balances [who] amount rewardTo)).setStashStake who
    (s.stashStake who - amount)).mapSysInfo fun i => i.setTotalStake (i.totalStake - amount)

/-- One round of `fulfill_machine_stake`, with what is left of the amount to spend; `none` once
the loop is over. -/
def fulfillOne (m : MachineId) (left : Nat) : Call (State A) Unit (Option Nat) := do
  let s ← get
  match s.machine m with
  | none => pure (some left)
  | some i => do
    let perGpu ← okOr s.stakePerGpu ()
    let need ← okOr (checkedMul u128Max perGpu i.gpuNum) ()
    if need ≤ i.stakeAmount then pure (some left)
    else if need - i.stakeAmount ≤ left then do
      changeStake i.machineStash (need - i.stakeAmount) true
      modify fun s => s.putMachine m (i.setStakeAmount need)
      pure (some (left - (need - i.stakeAmount)))
    else do
      changeStake i.machineStash left true
      modify fun s =>
        s.putMachine m (i.setStakeAmount (saturatingAdd u128Max i.stakeAmount left))
      pure none

/-- The loop of `fulfill_machine_stake`. -/
def fulfillLoop : List MachineId → Nat → Call (State A) Unit Unit
  | [], _ => pure ()
  | m :: l, left => do
    match ← fulfillOne m left with
    | some left => fulfillLoop l left
    | none => pure ()

def fulfillMachineStake (stash : A) (amount : Nat) : Call (State A) Unit Unit := do
  let s ← get
  fulfillLoop (s.stashMachine stash).onlineMachine.toList amount

/-! ## New slashes -/

def State.newOfflineSlash (s : State A) (percent : Nat) (m : MachineId) (reporter : Option A)
    (renters : List A) (committee : Option (List A)) (reason : OPSlashReason) :
    Option (OPPendingSlashInfo A) :=
  (s.machine m).map fun i =>
    { slashWho := i.machineStash
      machineId := m
      slashTime := s.now
      slashAmount := (Perbill.fromRational percent 100).mul i.stakeAmount
      slashExecTime := wrappingAdd u32Max s.now twoDays
      reporter := reporter
      renters := renters
      rewardToCommittee := committee
      slashReason := reason }

/-- `new_slash_when_offline`: who shares in the slash depends on the reason. -/
def State.newSlashWhenOffline (s : State A) (m : MachineId) (reason : OPSlashReason)
    (reporter : Option A) (renters : List A) (committee : Option (List A)) (duration : Nat) :
    Option (OPPendingSlashInfo A) :=
  let late := if duration ≤ twoDays then none else reporter
  let new := s.newOfflineSlash (slashPercent reason duration) m
  match reason with
  | .rentedReportOffline _ => new late renters none reason
  | .onlineReportOffline _ => new none [] none reason
  | .rentedInaccessible _ => new late renters committee reason
  | .rentedHardwareMalfunction _ | .rentedHardwareCounterfeit _ | .onlineRentFailed _ =>
    new reporter renters committee reason
  | _ => new none [] none reason

namespace Slashes

section

omit [LinearOrder A]

/-- `get_new_slash_id`, the counter after it. -/
def bumpSlashId (x : Slashes A) : Slashes A :=
  { x with nextSlashId := if x.nextSlashId = u64Max then 0 else x.nextSlashId + 1 }

def putSlash (x : Slashes A) (id : Nat) (i : OPPendingSlashInfo A) : Slashes A :=
  { x with
    pendingExecSlash := x.pendingExecSlash.insert i.slashExecTime
      ((x.pendingExecSlash.getD i.slashExecTime ∅).addItem id)
    pendingSlash := x.pendingSlash.insert id i
    machine2PendingSlashIds := x.machine2PendingSlashIds.insert i.machineId
      ((x.machine2PendingSlashIds.getD i.machineId ∅).addItem id) }

def addSlash (x : Slashes A) (i : OPPendingSlashInfo A) : Slashes A :=
  x.bumpSlashId.putSlash x.nextSlashId i

def rmSlash (x : Slashes A) (id : Nat) : Slashes A :=
  { x with pendingSlash := x.pendingSlash.remove id }

def putReview (x : Slashes A) (id : Nat) (i : OPPendingSlashReviewInfo A) : Slashes A :=
  { x with
    pendingSlashReview := x.pendingSlashReview.insert id i
    pendingSlashReviewChecking := x.pendingSlashReviewChecking.insert i.expireTime
      ((x.pendingSlashReviewChecking.getD i.expireTime ∅).addItem id) }

def rmReview (x : Slashes A) (id : Nat) : Slashes A :=
  { x with pendingSlashReview := x.pendingSlashReview.remove id }

def rmChecking (x : Slashes A) (block : Nat) : Slashes A :=
  { x with pendingSlashReviewChecking := x.pendingSlashReviewChecking.remove block }

/-- Drop a slash and its review from everything that is keyed by the block `execTime`. -/
def cancel (x : Slashes A) (id execTime : Nat) : Slashes A :=
  { x with
    pendingSlashReviewChecking := x.pendingSlashReviewChecking.insert execTime
      ((x.pendingSlashReviewChecking.getD execTime ∅).rmItem id)
    pendingExecSlash := x.pendingExecSlash.insert execTime
      ((x.pendingExecSlash.getD execTime ∅).rmItem id)
    pendingSlash := x.pendingSlash.remove id
    pendingSlashReview := x.pendingSlashReview.remove id }

/-- Remember when the slash of a fault was made final. -/
def putMaxSlashExeced (x : Slashes A) (m : MachineId) (now : Nat) : Slashes A :=
  { x with maxSlashExeced := x.maxSlashExeced.insert m now }

end

end Slashes

/-! ## Execution -/

/-- `do_slash_deposit`. A tenth goes to the renters and a fifth to the committees, if there are
any; nothing happens if the machine is gone or the reserve is short. The status that
`try_to_change_machine_status_to_fulfill` computes at the end is not stored. -/
def State.doSlashDeposit (s : State A) (i : OPPendingSlashInfo A) : State A :=
  match s.machine i.machineId with
  | none => s
  | some info =>
    if s.balances.reserved info.machineStash < i.slashAmount then s
    else
      let toRenters :=
        if i.renters.isEmpty then 0 else (Perbill.fromRational 10 100).mul i.slashAmount
      let toCommittee :=
        if i.rewardToCommittee.isSome then (Perbill.fromRational 20 100).mul i.slashAmount else 0
      let s := if 0 < toRenters then s.slashAndReward i.slashWho toRenters i.renters else s
      let s :=
        if 0 < toCommittee then
          s.slashAndReward i.slashWho toCommittee (i.rewardToCommittee.getD [])
        else s
      s.slashAndReward i.slashWho (i.slashAmount - toRenters - toCommittee) []

/-- One round of `exec_pending_slash`. -/
def State.execOneSlash (s : State A) (id : Nat) : State A :=
  match s.slashes.pendingSlash.get id with
  | none => s
  | some i =>
    let s := match i.slashReason with
      | .committeeRefusedOnline | .committeeRefusedMutHardware =>
        s.slashAndReward i.slashWho i.slashAmount (i.rewardToCommittee.getD [])
      | _ => s.doSlashDeposit i
    s.mapSlashes (·.rmSlash id)

def State.execPendingSlash (s : State A) : State A :=
  (s.slashes.pendingExecSlash.getD s.now ∅).toList.foldl execOneSlash s

/-- One round of `check_pending_slash`. -/
def checkOneReview (id : Nat) : Call (State A) Unit Unit := do
  let s ← get
  let review ← okOr (s.slashes.pendingSlashReview.get id) ()
  let stash ← okOr (s.owners.controllerStash.get review.applicant) ()
  set ((s.slashAndReward stash review.stakedAmount []).mapSlashes (·.rmReview id))

/-- `check_pending_slash`: the reviews that are due are lost. An error leaves the rest of the
bucket as it is. -/
def checkPendingSlash : Call (State A) Unit Unit := do
  let s ← get
  if s.slashes.pendingSlashReviewChecking.contains s.now then do
    forEach (s.slashes.pendingSlashReviewChecking.getD s.now ∅).toList checkOneReview
    modify fun s => s.mapSlashes (·.rmChecking s.now)
  else pure ()

end

end DeepBrainChain.OnlineProfile
