import Skirmish.Battle.Command
import Skirmish.Content.Schema
import Skirmish.Document.Reader
import Skirmish.Modifier.Save
import Skirmish.Proofs.Battle.Actor
import Skirmish.Proofs.Battle.Blows
import Skirmish.Proofs.Battle.Consistency
import Skirmish.Proofs.Battle.Damage
import Skirmish.Proofs.Battle.Decision
import Skirmish.Proofs.Battle.Healing
import Skirmish.Proofs.Battle.Kills
import Skirmish.Proofs.Battle.Kinds
import Skirmish.Proofs.Battle.Reckoning
import Skirmish.Proofs.Battle.Relapse
import Skirmish.Proofs.Battle.Staleness
import Skirmish.Proofs.Battle.Terminal
import Skirmish.Proofs.Battle.Termination
import Skirmish.Proofs.Battle.Transparency
import Skirmish.Proofs.Battle.TurnOrder
import Skirmish.Proofs.Battle.Vitality
import Skirmish.Proofs.Chance
import Skirmish.Proofs.Content.Sections
import Skirmish.Proofs.Fallible
import Skirmish.Proofs.Formula.Escape
import Skirmish.Proofs.Formula.Rejection
import Skirmish.Proofs.Modifier.Counts
import Skirmish.Proofs.Modifier.Restoration
import Skirmish.Proofs.Modifier.Stack
import Skirmish.Proofs.Stat.FixedPoint
import Skirmish.Proofs.Table
import Skirmish.Proofs.Trigger.Budget
import Skirmish.Proofs.Trigger.Sight
import Skirmish.Story.Choice
import Skirmish.Proofs.Modifier.Bonus
import Skirmish.Proofs.Modifier.Reordering
import Skirmish.Proofs.Battle.Impartiality
import Skirmish.Proofs.Story.Gating
import Skirmish.Proofs.Battle.Ranking
import Skirmish.Proofs.Battle.Consumption
import Skirmish.Proofs.Battle.Reinforcement
import Skirmish.Proofs.Stat.Aliases
import Skirmish.Proofs.Modifier.Merging
