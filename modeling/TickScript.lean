import TickScript.Text.Blank
import TickScript.Number.Layout
import TickScript.Term.Parser
import TickScript.Token.Lexer
import TickScript.Call
import TickScript.Line
import TickScript.Name
import TickScript.Arith
import TickScript.Builtin
import TickScript.Draws
import TickScript.Kind
import TickScript.Stack
import TickScript.Code
import TickScript.Code.Generate
import TickScript.Code.Run
import TickScript.Formula
import TickScript.Operand
import TickScript.Arena
import TickScript.Registry
import TickScript.Registry.Standard
import TickScript.World
import TickScript.Instruction
import TickScript.Script
import TickScript.Collector
import TickScript.Processor.Execute
import TickScript.Processor.Load
import TickScript.Processor.Tick
import TickScript.CommandLine
import TickScript.Main
import TickScript.Term.Eval
import TickScript.Proofs.Code.Correct
import TickScript.Proofs.Code.Forward
import TickScript.Proofs.Syntax.CallLines
import TickScript.Proofs.Syntax.Parse
import TickScript.Proofs.Script.Labels
import TickScript.Proofs.Memory.Bookkeeping
import TickScript.Proofs.Arena.Ledger
import TickScript.Proofs.Arena.Ownership
import TickScript.Proofs.Host.MemoryMethods
import TickScript.Proofs.Processor.Isolation
import TickScript.Proofs.Processor.Terminal
import TickScript.Proofs.Processor.Wait
import TickScript.Proofs.Syntax.Names
import TickScript.Proofs.Script.Causes
import TickScript.Proofs.Processor.Intake
import TickScript.Proofs.Processor.Reload
import TickScript.Proofs.Code.Exact
import TickScript.Proofs.Processor.Numbers
import TickScript.Proofs.Syntax.Respelling
import TickScript.Proofs.Syntax.Undeclared
import TickScript.Proofs.Storage.Index
