import ModuleBundle.CommandLine.Console
import ModuleBundle.FileSystem.Memory
import ModuleBundle.Main
import ModuleBundle.Resolution.Cache
import ModuleBundle.Proofs.Loading.Session
import ModuleBundle.Proofs.Path.Joining
import ModuleBundle.Proofs.Resolution.Remembered
import ModuleBundle.Proofs.Loading.Loaded
import ModuleBundle.Proofs.Graph.Discovery
import ModuleBundle.Proofs.Graph.Numbering
import ModuleBundle.Proofs.Graph.Survey
import ModuleBundle.Proofs.Graph.Generations
import ModuleBundle.Proofs.Graph.Together
import ModuleBundle.Proofs.Graph.Agreement
import ModuleBundle.Proofs.Graph.Stages
import ModuleBundle.Proofs.Graph.Closure
import ModuleBundle.Proofs.Graph.Deduplication
import ModuleBundle.Proofs.Graph.Faithfulness
import ModuleBundle.Proofs.Graph.Modes
import ModuleBundle.Proofs.Path.Cleaning
import ModuleBundle.Proofs.Resolution.Trees
import ModuleBundle.Proofs.Script.Binders
import ModuleBundle.Proofs.Lowering.Occurrences
import ModuleBundle.Proofs.Lowering.ScopeStack
import ModuleBundle.Proofs.Lowering.Splicing
import ModuleBundle.Proofs.Lowering.Shadowing
import ModuleBundle.Proofs.Lowering.Rewriting
import ModuleBundle.Proofs.Lowering.Boundaries
import ModuleBundle.Proofs.Emission.Table
import ModuleBundle.Proofs.Graph.BreadthFirst
import ModuleBundle.Proofs.Lowering.ModuleSyntax
import ModuleBundle.Proofs.Lowering.HiddenNames
import ModuleBundle.Proofs.Lowering.Hygiene
import ModuleBundle.Proofs.Graph.Openings
import ModuleBundle.Proofs.Graph.LoadedOnce
import ModuleBundle.Proofs.Graph.Termination
import ModuleBundle.Proofs.Graph.Broken
import ModuleBundle.Proofs.Emission.BrokenModules
import ModuleBundle.Proofs.Script.ObjectLiteral
import ModuleBundle.Proofs.Emission.MappingLiteral
import ModuleBundle.Proofs.Graph.Unprobed
import ModuleBundle.Proofs.Lowering.Untouched
import ModuleBundle.Proofs.Lowering.Requests
import ModuleBundle.Proofs.Lowering.Exports
import ModuleBundle.Proofs.Lowering.Definitions
import ModuleBundle.Proofs.Lowering.DefaultImports
import ModuleBundle.Proofs.Lowering.Receivers
import ModuleBundle.Proofs.Lowering.EvaluationOrder
import ModuleBundle.Proofs.FileSystem.Memory
import ModuleBundle.Proofs.FileSystem.Directories
import ModuleBundle.Proofs.Resolution.Candidates
import ModuleBundle.Proofs.Resolution.Resolver
import ModuleBundle.Proofs.Text.Json
import ModuleBundle.Proofs.Graph.Dump
import ModuleBundle.Proofs.Script.StringLiteral
import ModuleBundle.Proofs.Script.Waiting
