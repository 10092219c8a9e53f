import Jack.Command.Run
import Jack.Compiler
import Jack.Lexical.Listing
import Jack.Main
import Jack.Markup.Tree
import Jack.Proofs.ClassMeaning
import Jack.Proofs.Completion
import Jack.Proofs.Evaluation
import Jack.Proofs.Execution
import Jack.Proofs.ExpressionMeaning
import Jack.Proofs.GrammarCompleteness
import Jack.Proofs.GrammarSoundness
import Jack.Proofs.Labels
import Jack.Proofs.Locality
import Jack.Proofs.Lowering
import Jack.Proofs.Machine
import Jack.Proofs.Occurrence
import Jack.Proofs.OnePass
import Jack.Proofs.Reading
import Jack.Proofs.Scope
import Jack.Proofs.StackHeight
import Jack.Proofs.StatementMeaning
import Jack.Proofs.SyntaxErrors
import Jack.Proofs.WellScoped
import Jack.Proofs.Yield
import Jack.Proofs.Declarations
import Jack.Proofs.Emission
import Jack.Proofs.Operands
import Jack.Proofs.Isolation
import Jack.Proofs.LabelOrder
import Jack.Proofs.Layout
import Jack.Proofs.Names
import Jack.Proofs.CodeText
import Jack.Proofs.Files
import Jack.Proofs.Workers
import Jack.Proofs.Outputs
import Jack.Proofs.Runs
import Jack.Proofs.Renaming
import Jack.Proofs.Refusals
import Jack.Proofs.Literals
import Jack.Proofs.Constants
import Jack.Proofs.MarkupLeaves
import Jack.Proofs.MarkupText
import Jack.Proofs.MarkupTree
import Jack.Proofs.MarkupLines
import Jack.Proofs.Places
import Jack.Proofs.Recognition
import Jack.Proofs.Stripping
import Jack.Proofs.Tiling
import Jack.Proofs.ScopeRules
import Jack.Proofs.SourceEnd
