import Gemba.Lib.Outcome
import Gemba.Lib.Bytes
import Gemba.Sdk.MathInt
import Gemba.Sdk.Address
import Gemba.Lib.Runs
import Gemba.Lib.Forest
import Gemba.Lib.Json
import Gemba.Valgate.Params
import Gemba.Valgate.Keeper
import Gemba.Valgate.Genesis
import Gemba.Valgate.Staking
import Gemba.Valgate.RemainingBond
import Gemba.Valgate.Ante
import Gemba.Valgate.Nesting
import Gemba.Valgate.Panics
import Gemba.Valgate.Chain
import Gemba.Valgate.DailyCap
import Gemba.Evm.Basic
import Gemba.Evm.Erc20
import Gemba.Evm.Guarded
import Gemba.Evm.Holders
import Gemba.Dex.NativePool
import Gemba.Lib.Checkpoints
import Gemba.Evm.Abi
import Gemba.Reserves.BaseReserve
import Gemba.Reserves.PublicReserve
import Gemba.Reserves.GembaDripFaucet
import Gemba.Reserves.Reserve
import Gemba.Governance.GembaVotes
import Gemba.Governance.Timelock
import Gemba.Governance.Dao
import Gemba.Governance.Proposals
import Gemba.Governance.Verdict
import Gemba.Governance.EmergencyPause
import Gemba.Sdk.Bank
import Gemba.Sdk.JsonNumbers
import Gemba.Rewards.FeeSplit
import Gemba.Rewards.RewardStreamer
import Gemba.Rewards.FormulaRound
import Gemba.Lib.Apportion
import Gemba.Rewards.Formula
import Gemba.Rewards.FormulaCredits
import Gemba.Rewards.FormulaFreeze
import Gemba.Rewards.Depletion
import Gemba.Rewards.Wiring
import Gemba.Rewards.Chain
import Gemba.Rewards.GenesisJson
import Gemba.Rewards.GenesisKept
import Gemba.Rewards.Ledger
import Gemba.Rewards.KillSwitch
import Gemba.Rewards.FeeBooks
import Gemba.Rewards.FeeRouting
import Gemba.Governance.VotingPower
import Gemba.Governance.VotesChain
import Gemba.Governance.Exclusion
import Gemba.Js.Value
import Gemba.Purchase.GembaPayDispenser
import Gemba.Purchase.Server
import Gemba.Purchase.Fulfilment
import Gemba.Purchase.AtMostOnce
import Gemba.Purchase.Acknowledged
import Gemba.Governance.IronRule
import Gemba.Governance.Authority
import Gemba.Governance.Limits
import Gemba.Governance.Treasury
import Gemba.Lib.Reentrancy
import Gemba.Lib.Windows
import Gemba.Reserves.DrainRate
import Gemba.Lib.ConstantProduct
import Gemba.Dex.ShareValue
import Gemba.Dex.NeverWedged
import Gemba.Faucet.GembaFaucet
import Gemba.Faucet.RollingCap
import Gemba.Faucet.DripService
import Gemba.Faucet.DripBudget
import Gemba.Faucet.DripCooldown
import Gemba.Lib.Totals
import Gemba.Dex.WGMB
import Gemba.Payments.GmbCollector
import Gemba.Dex.LiquidityLocker
import Gemba.Evm.AccessControl
import Gemba.Evm.Erc1155
import Gemba.Tickets.GembaTicketing
import Gemba.Validator.NodeWatchdog
import Gemba.Access.AccessControlNFT
import Gemba.Access.Erasure
import Gemba.Lib.Largest
import Gemba.Notifier.Nakamoto
import Gemba.Dex.Slippage
import Gemba.Faucet.NoTrace
import Gemba.Reserves.DripRuns
import Gemba.Tickets.GembaPerks
import Gemba.Lib.RetryQueue
import Gemba.Access.Outbox
import Gemba.Access.OutboxReplay
import Gemba.Valgate.AutoCompound
import Gemba.Notifier.GmbSales
import Gemba.Lib.Placed
import Gemba.Lib.Babylonian
import Gemba.GembaSwap.ERC20
import Gemba.GembaSwap.Pair
import Gemba.GembaSwap.Machine
import Gemba.GembaSwap.Shares
import Gemba.GembaSwap.Oracle
import Gemba.GembaSwap.Library
import Gemba.GembaSwap.Dex
import Gemba.GembaSwap.Router
import Gemba.Lib.Movements
import Gemba.GembaSwap.Exchange
import Gemba.GembaSwap.Routes
import Gemba.Validator.ChainHalt
