import MarkupGrammar.Check.Session
import MarkupGrammar.Declaration.Scan
import MarkupGrammar.Generate.Run
import MarkupGrammar.Json.Printer
import MarkupGrammar.Json.Reader
import MarkupGrammar.Library.Registry
import MarkupGrammar.Main
import MarkupGrammar.Module.Load
import MarkupGrammar.Module.Statistics
import MarkupGrammar.RelaxNg.Compile
import MarkupGrammar.Service.Answer
import MarkupGrammar.Settings
import MarkupGrammar.Text.Case
import MarkupGrammar.Text.Word
import MarkupGrammar.Module.Graph
import MarkupGrammar.Proofs.Compile.Names
import MarkupGrammar.Proofs.Compile.Reachable
import MarkupGrammar.Proofs.Check.Conformance
import MarkupGrammar.Proofs.Check.Tree
import MarkupGrammar.Proofs.Check.Repair
import MarkupGrammar.Proofs.Markup.Manuscript
import MarkupGrammar.Proofs.Markup.Scan
import MarkupGrammar.Proofs.Markup.Lexing
import MarkupGrammar.Proofs.Corpus.Dictionary
import MarkupGrammar.Proofs.Grammar.Resolution
import MarkupGrammar.Proofs.RelaxNg.AttributeList
import MarkupGrammar.Proofs.Module.Lossless
import MarkupGrammar.Proofs.Check.Relocation
import MarkupGrammar.Proofs.Grammar.Language
import MarkupGrammar.Proofs.Grammar.Required
import MarkupGrammar.Proofs.RelaxNg.Children
import MarkupGrammar.Proofs.RelaxNg.Mixed
import MarkupGrammar.Proofs.RelaxNg.Demands
import MarkupGrammar.Proofs.RelaxNg.RequiredChildren
import MarkupGrammar.Proofs.Check.Balance
import MarkupGrammar.Proofs.Check.Placement
import MarkupGrammar.Proofs.Check.Access
import MarkupGrammar.Proofs.Compile.Soundness
import MarkupGrammar.Proofs.Check.SelfClosing
import MarkupGrammar.Proofs.Check.Admission
import MarkupGrammar.Proofs.Check.Values
import MarkupGrammar.Proofs.Check.Session
import MarkupGrammar.Proofs.Json.Name
import MarkupGrammar.Proofs.Library.Action
import MarkupGrammar.Proofs.Storage.FileTree
import MarkupGrammar.Proofs.Library.Registry
import MarkupGrammar.Proofs.Library.Keeper
import MarkupGrammar.Proofs.Library.CorpusFile
import MarkupGrammar.Proofs.Json.RoundTrip
import MarkupGrammar.Proofs.Library.ModuleFile
import MarkupGrammar.Proofs.Check.Choice
import MarkupGrammar.Proofs.Module.Normal
import MarkupGrammar.Proofs.Compile.Order
import MarkupGrammar.Proofs.Check.Exclusive
import MarkupGrammar.Proofs.Check.Cardinality
import MarkupGrammar.Proofs.Check.Sequence
import MarkupGrammar.Proofs.RelaxNg.Attribute
import MarkupGrammar.Proofs.Compile.Alone
import MarkupGrammar.Proofs.Module.Consistency
import MarkupGrammar.Proofs.Module.Outcome
import MarkupGrammar.Proofs.Corpus.Outcome
import MarkupGrammar.Proofs.Compile.Independence
import MarkupGrammar.Proofs.Corpus.Membership
import MarkupGrammar.Proofs.Corpus.Content
import MarkupGrammar.Proofs.Check.Mismatch
import MarkupGrammar.Proofs.Markup.Stray
import MarkupGrammar.Proofs.Declaration.Instruction
import MarkupGrammar.Proofs.Compile.Shape
import MarkupGrammar.Proofs.Service.Answer
import MarkupGrammar.Proofs.Markup.Place
import MarkupGrammar.Proofs.Markup.Stretch
import MarkupGrammar.Proofs.Compile.Nesting
import MarkupGrammar.Proofs.Corpus.Prose
