import DeepBrainChain.ComputePoolScheduler.Payable
import DeepBrainChain.ComputePoolScheduler.Selection
import DeepBrainChain.MaintainCommittee.Reversal
import DeepBrainChain.MaintainCommittee.Waiting
import DeepBrainChain.OnlineCommittee.Appeals
import DeepBrainChain.OnlineCommittee.Reversal
import DeepBrainChain.OnlineProfile.Release
import DeepBrainChain.OnlineProfile.Rewarded
import DeepBrainChain.OnlineProfile.Signature
import DeepBrainChain.OnlineProfile.SlashDeposit
import DeepBrainChain.Precompiles
import DeepBrainChain.RentMachine.Offline
import DeepBrainChain.RentMachine.Quote
import DeepBrainChain.RentMachine.Renters
import DeepBrainChain.TerminatingRental.Run
import DeepBrainChain.ZkCompute.Deposits
