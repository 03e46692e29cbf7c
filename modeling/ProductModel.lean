import ProductModel.Association
import ProductModel.CommandLine
import ProductModel.CommandLine.Arguments
import ProductModel.Config
import ProductModel.Decimal.Binary
import ProductModel.Decimal.Digits
import ProductModel.Decimal.Notation
import ProductModel.Decimal.Numeral
import ProductModel.Engine.Action
import ProductModel.Engine.Call
import ProductModel.Engine.Creation
import ProductModel.Engine.Inspection
import ProductModel.Engine.Perform
import ProductModel.Engine.Placement
import ProductModel.Engine.PropertyChange
import ProductModel.Engine.RuleChain
import ProductModel.Error
import ProductModel.Instance
import ProductModel.Instance.Arena
import ProductModel.Instance.Id
import ProductModel.Instance.Tree
import ProductModel.Json
import ProductModel.Json.Exchange
import ProductModel.Json.Reader
import ProductModel.Json.Writer
import ProductModel.Main
import ProductModel.Naming
import ProductModel.Operator
import ProductModel.ProblemLog
import ProductModel.Program
import ProductModel.Program.Operation
import ProductModel.Proofs.Arena.AbsoluteName
import ProductModel.Proofs.Arena.FindName
import ProductModel.Proofs.Arena.Forest
import ProductModel.Proofs.Arena.Growth
import ProductModel.Proofs.Arena.History
import ProductModel.Proofs.Arena.Lookup
import ProductModel.Proofs.ChainsProtect
import ProductModel.Proofs.DispatchCache
import ProductModel.Proofs.ElementName
import ProductModel.Proofs.Lifetime
import ProductModel.Proofs.Navigable
import ProductModel.Proofs.Outcome
import ProductModel.Proofs.RefusedChange
import ProductModel.Proofs.Registry.Hierarchy
import ProductModel.Proofs.Registry.Lookups
import ProductModel.Proofs.Registry.Namesakes
import ProductModel.Proofs.Run.Alike
import ProductModel.Proofs.Run.Births
import ProductModel.Proofs.Run.Bodies
import ProductModel.Proofs.Run.Calls
import ProductModel.Proofs.Run.Creation
import ProductModel.Proofs.Run.Follows
import ProductModel.Proofs.Run.Mirrors
import ProductModel.Proofs.Run.Names
import ProductModel.Proofs.Run.Perform
import ProductModel.Proofs.Run.Placement
import ProductModel.Proofs.Run.PropertyChange
import ProductModel.Proofs.Run.Reachable
import ProductModel.Proofs.Run.Sound
import ProductModel.Proofs.Run.Stages
import ProductModel.Proofs.Run.Unobtrusive
import ProductModel.Proofs.Run.Watching
import ProductModel.Proofs.SameAsItself
import ProductModel.Proofs.StoredValues
import ProductModel.Proofs.WellKept
import ProductModel.Property.Accessor
import ProductModel.Property.Definition
import ProductModel.Property.Exchange
import ProductModel.Property.Table
import ProductModel.Script.Answer
import ProductModel.Script.Code
import ProductModel.Script.Command
import ProductModel.Script.Expression
import ProductModel.Script.Play
import ProductModel.Script.Step
import ProductModel.Showroom
import ProductModel.Showroom.Demo
import ProductModel.Showroom.Routine
import ProductModel.Snapshot
import ProductModel.Space
import ProductModel.Symbol
import ProductModel.Text.Uppercase
import ProductModel.Toml
import ProductModel.Toml.Reader
import ProductModel.Toml.Scalar
import ProductModel.Toml.Writer
import ProductModel.Types.MethodCache
import ProductModel.Types.Registry
import ProductModel.Types.Rule
import ProductModel.Types.TypeDef
import ProductModel.Value
import ProductModel.Value.Exchange
import ProductModel.World
import ProductModel.Proofs.Established
import ProductModel.Proofs.Decimal.Reading
import ProductModel.Proofs.Json.Reading
import ProductModel.Proofs.Json.Restoring
import ProductModel.Proofs.StoredForms
import ProductModel.Proofs.AdmittedAlike
import ProductModel.Proofs.Run.Guarded
import ProductModel.Proofs.ValidInstances
import ProductModel.Proofs.Run.Settling
import ProductModel.Proofs.ValidProperties
import ProductModel.Proofs.Run.Outcomes
import ProductModel.Proofs.Showroom.Types
import ProductModel.Proofs.Showroom.Furnished
import ProductModel.Proofs.Showroom.Routines
import ProductModel.Proofs.Showroom.Initializers
import ProductModel.Proofs.Showroom.Changing
import ProductModel.Proofs.Showroom.Elements
import ProductModel.Proofs.Showroom.Building
import ProductModel.Proofs.CabinetInOrder
import ProductModel.Proofs.Arena.Postorder
import ProductModel.Proofs.Removal
import ProductModel.Proofs.Run.Respects
import ProductModel.Proofs.Run.Modest
import ProductModel.Proofs.AttributesRestored
import ProductModel.Proofs.AttributeWritten
import ProductModel.Proofs.Run.Readings
import ProductModel.Proofs.ChangeAnswered
import ProductModel.Proofs.AccessorsRestored
import ProductModel.Proofs.Run.Refusals
import ProductModel.Proofs.FailedCreation
import ProductModel.Proofs.Run.Considerate
import ProductModel.Proofs.Run.TreeKept
import ProductModel.Proofs.ElementAdded
import ProductModel.Proofs.Registry.Denotation
import ProductModel.Proofs.Registry.RuleChains
import ProductModel.Proofs.Run.TypesKept
import ProductModel.Proofs.ChainRuns
import ProductModel.Proofs.Arena.Preorder
import ProductModel.Proofs.Run.StorageKept
import ProductModel.Proofs.Sweeps
import ProductModel.Proofs.Registry.WholeChanges
import ProductModel.Proofs.PresentationOrder
import ProductModel.Proofs.Run.Permissive
import ProductModel.Proofs.Run.StorageMarked
import ProductModel.Proofs.SweepExits
import ProductModel.Proofs.ChangedKeys
import ProductModel.Proofs.Registry.OperatorMethods
import ProductModel.Proofs.WordArithmetic
import ProductModel.Proofs.EqualityOfOperands
import ProductModel.Proofs.Arena.WaysUp
import ProductModel.Proofs.Run.Counting
import ProductModel.Proofs.TreeWalks
import ProductModel.Proofs.SubtreeBoxes
import ProductModel.Proofs.Picking
import ProductModel.Proofs.Movements
import ProductModel.Proofs.ProblemLogs
import ProductModel.Proofs.Run.Checking
import ProductModel.Proofs.ConsistencyChecks
import ProductModel.Proofs.LocalNames
import ProductModel.Proofs.SymbolNumbers
import ProductModel.Proofs.FirstOccurrences
