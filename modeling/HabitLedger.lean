import HabitLedger.Ledger
import HabitLedger.Main
import HabitLedger.Proofs.DayLine
import HabitLedger.Proofs.DayRuns
import HabitLedger.Proofs.StreakOfSet
import HabitLedger.Proofs.Entries
import HabitLedger.Proofs.IntakeModes
import HabitLedger.Proofs.Earned
import HabitLedger.Proofs.Progress
import HabitLedger.Proofs.Tally
import HabitLedger.Proofs.Rank
import HabitLedger.Proofs.Coherence
import HabitLedger.Proofs.Spending
import HabitLedger.Proofs.AnyOrder
import HabitLedger.Proofs.Rewording
import HabitLedger.Proofs.Consistency
import HabitLedger.Proofs.Documents
import HabitLedger.Proofs.ExpenseText
import HabitLedger.Proofs.DashboardText
import HabitLedger.Proofs.Saves
import HabitLedger.Proofs.LooseDocuments
import HabitLedger.Proofs.LayoutOnly
import HabitLedger.Proofs.StampText
import HabitLedger.Proofs.Improvement
import HabitLedger.Proofs.SaverCeiling
import HabitLedger.Proofs.SentAmounts
import HabitLedger.Proofs.SentAgain
import HabitLedger.Proofs.CommandGrammar
import HabitLedger.Proofs.RunWalk
import HabitLedger.Proofs.WordCounts
import HabitLedger.Proofs.DayAfter
import HabitLedger.Proofs.Conservation
import HabitLedger.Proofs.Signs
import HabitLedger.Proofs.PartialSettings
