import ApiModels.Export
import ApiModels.Files.Tree
import ApiModels.Main
import ApiModels.Registry.Selector
import ApiModels.Samples.Kinds
import ApiModels.Samples.Widget
import ApiModels.Source.Reading
import ApiModels.Source.Token
import ApiModels.Text.Words
import ApiModels.Proofs.Components
import ApiModels.Proofs.DistinctNames
import ApiModels.Proofs.IngestedModel
import ApiModels.Proofs.Cycles
import ApiModels.Proofs.Exclusion
import ApiModels.Proofs.Splits
import ApiModels.Proofs.EmissionOrder
import ApiModels.Proofs.LeftOut
import ApiModels.Proofs.Emitted
import ApiModels.Proofs.BoundOperations
import ApiModels.Proofs.NothingDangles
import ApiModels.Proofs.Containment
import ApiModels.Proofs.BoundOrReported
import ApiModels.Proofs.MethodNames
import ApiModels.Proofs.NameEntries
import ApiModels.Proofs.Edits
import ApiModels.Proofs.Requests
import ApiModels.Proofs.ItemPaths
import ApiModels.Proofs.AccessPaths
import ApiModels.Proofs.GeneratedMethods
import ApiModels.Proofs.FieldNames
import ApiModels.Proofs.CanonicalNames
import ApiModels.Proofs.ItemNames
import ApiModels.Proofs.Plans
import ApiModels.Proofs.GeneratedOperations
import ApiModels.Proofs.UpdateKinds
import ApiModels.Proofs.Modifications
import ApiModels.Proofs.Placeholders
import ApiModels.Proofs.FileTrees
import ApiModels.Proofs.OutputPaths
import ApiModels.Proofs.WrittenReleases
import ApiModels.Proofs.Interleavings
import ApiModels.Proofs.Overrides
import ApiModels.Proofs.RenumberedNames
import ApiModels.Proofs.RenumberedOrder
import ApiModels.Proofs.DefinitionOrder
import ApiModels.Proofs.PrintedJson
import ApiModels.Proofs.Directories
import ApiModels.Proofs.StoredTables
import ApiModels.Proofs.RegistryFiles
import ApiModels.Proofs.RegistryHistory
import ApiModels.Proofs.Preferences
import ApiModels.Proofs.MethodChanges
import ApiModels.Proofs.MergedJson
import ApiModels.Proofs.ReadValues
import ApiModels.Proofs.VersionLists
import ApiModels.Proofs.NumbersInRange
import ApiModels.Proofs.WellFormedModel
import ApiModels.Proofs.LabelOrder
import ApiModels.Proofs.AliasChains
import ApiModels.Proofs.PercentDecoding
import ApiModels.Proofs.Queries
import ApiModels.Proofs.Templates
import ApiModels.Proofs.MethodOrder
import ApiModels.Proofs.StrippedNames
import ApiModels.Proofs.UnfoldedSchemas
import ApiModels.Proofs.DeclaredParameters
import ApiModels.Proofs.UndefinedReferences
import ApiModels.Proofs.Signatures
import ApiModels.Proofs.SavedMethods
import ApiModels.Proofs.CompleteWalks
import ApiModels.Proofs.DefinitionKeys
import ApiModels.Proofs.RegisteredKinds
import ApiModels.Proofs.ValidIdentifiers
import ApiModels.Proofs.Offsets
