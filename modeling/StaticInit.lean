import StaticInit.Phase
import StaticInit.PhaseLocker.Word
import StaticInit.PhaseLocker.Sync.Bits
import StaticInit.PhaseLocker.Sync.Program
import StaticInit.PhaseLocker.Sync.System
import StaticInit.PhaseLocker.Sync.Ledger
import StaticInit.PhaseLocker.Sync.Shares
import StaticInit.PhaseLocker.Sync.Sound
import StaticInit.PhaseLocker.Sync.Invariant
import StaticInit.PhaseLocker.Sync.Exclusion
import StaticInit.PhaseLocker.Sync.Assertions
import StaticInit.PhaseLocker.Sync.Phases
import StaticInit.LazySequentializer.Initialization
import StaticInit.PhaseLocker.Sync.Usage
import StaticInit.PhaseLocker.Sync.Calm
import StaticInit.PhaseLocker.Sync.Quiescence
import StaticInit.Chain
import StaticInit.ExitSequentializer.Register
import StaticInit.PhaseLocker.UnSync
import StaticInit.LazySequentializer.Once
import StaticInit.LazySequentializer.Exit
import StaticInit.LazySequentializer.Execution
import StaticInit.GenericLazy.Accessors
import StaticInit.GenericLazy.GlobalHint
import StaticInit.PhaseLocker.Spinning.Exclusion
import StaticInit.PhaseLocker.Natures
import StaticInit.PhaseLocker.Sync.Endings
import StaticInit.PhaseLocker.Spinning.Natures
import StaticInit.LazySequentializer.CallSites
import StaticInit.PhaseLocker.Solo
import StaticInit.PhaseLocker.Spinning.Solo
import StaticInit.PhaseLocker.SoloCode
import StaticInit.PhaseLocker.Sync.Solo
import StaticInit.PhaseLocker.Agreement
import StaticInit.PhaseLocker.Sync.Fairness
import StaticInit.Batches
import StaticInit.ExitSequentializer.Cxa
import StaticInit.ExitSequentializer.Windows
import StaticInit.ExitSequentializer.Pthread
import StaticInit.GenericLazy.Lesser
import StaticInit.GenericLazy.UnSyncDroped
import StaticInit.Macro.Options
import StaticInit.Macro.Effects
import StaticInit.Macro.Priming
import StaticInit.Decimal
import StaticInit.Macro.Sections
import StaticInit.ExitSequentializer.Key
import StaticInit.PhaseLocker.Sync.Readers
import StaticInit.PhaseLocker.Sync.Unopposed
import StaticInit.PhaseLocker.GuardProtocol
import StaticInit.RawStatic
import StaticInit.GenericLazy.Owned
import StaticInit.GenericLazy.OwnedDrop
import StaticInit.LazySequentializer.Cyclic
import StaticInit.PhaseLocker.Sync.Cloning
import StaticInit.LazySequentializer.Client
import StaticInit.LazySequentializer.Lockers
import StaticInit.BatchOrder
import StaticInit.ExitSequentializer.Order
import StaticInit.LazySequentializer.Published
import StaticInit.LazySequentializer.Turns
import StaticInit.ExitSequentializer.Statics
import StaticInit.PhaseLocker.Spinning.Progress
import StaticInit.Macro.Types
import StaticInit.PhaseLocker.Sync.Descent
import StaticInit.PhaseLocker.Sync.Drained
