import MiniScheme.Batch
import MiniScheme.Console.Completion
import MiniScheme.Console.Highlight
import MiniScheme.Console.Repl
import MiniScheme.Inspect
import MiniScheme.Main
import MiniScheme.Proofs.Batch
import MiniScheme.Proofs.Console.Agreement
import MiniScheme.Proofs.Console.Brackets
import MiniScheme.Proofs.Console.Completion
import MiniScheme.Proofs.Datum.Padding
import MiniScheme.Proofs.Datum.Slices
import MiniScheme.Proofs.Eval.CallArity
import MiniScheme.Proofs.Eval.CallFrames
import MiniScheme.Proofs.Eval.CondAsIfs
import MiniScheme.Proofs.Eval.Equality
import MiniScheme.Proofs.Eval.LetAsCall
import MiniScheme.Proofs.Eval.Lexical
import MiniScheme.Proofs.Eval.Scope
import MiniScheme.Proofs.Session.Extents
import MiniScheme.Proofs.Token.Display
