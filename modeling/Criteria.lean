import Criteria.Condition.Truth
import Criteria.Json.Reader
import Criteria.Pattern.Matching
import Criteria.Settings.Reader
import Criteria.Sql.Literal
import Criteria.Statement
import Criteria.Translation
import Criteria.Proofs.OperatorNegation
import Criteria.Proofs.FilterGrammar
import Criteria.Proofs.FilterMeaning
import Criteria.Proofs.CursorWalk
import Criteria.Proofs.BoundValues
import Criteria.Proofs.Relations
import Criteria.Proofs.StatementText
import Criteria.Proofs.MemberIndependence
import Criteria.Proofs.FilterLeaves
import Criteria.Proofs.FilterShapes
import Criteria.Proofs.ConditionTyping
import Criteria.Proofs.Permutation
import Criteria.Proofs.FilterReordering
import Criteria.Proofs.DescriptionMembers
import Criteria.Proofs.Reordering
import Criteria.Proofs.DescriptionRoundTrip
import Criteria.Proofs.LiteralPatterns
import Criteria.Proofs.FilterSilence
import Criteria.Proofs.FilterFaults
import Criteria.Proofs.FilterPlaces
import Criteria.Proofs.EquivalentSpellings
import Criteria.Proofs.ExplicitConjunction
import Criteria.Proofs.ListQuantifiers
import Criteria.Proofs.CursorPartition
import Criteria.Proofs.CursorAcceptance
import Criteria.Proofs.SchemaLookups
import Criteria.Proofs.ModeScope
import Criteria.Proofs.AppliedStatement
import Criteria.Proofs.DecimalNumerals
import Criteria.Proofs.ScientificDecimals
import Criteria.Proofs.TextOperands
import Criteria.Proofs.DecimalOperands
import Criteria.Proofs.CalendarDays
import Criteria.Proofs.InstantReading
import Criteria.Proofs.InstantOperands
import Criteria.Proofs.DateSpellings
import Criteria.Proofs.UuidSpellings
import Criteria.Proofs.PrintedValues
