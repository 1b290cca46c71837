import MessageLisp.Inspection
import MessageLisp.Main
import MessageLisp.Native.EntryPoint
import MessageLisp.Source.Lexer
import MessageLisp.Proofs.Number.Rounding
import MessageLisp.Proofs.Number.Pattern
import MessageLisp.Proofs.Number.Decimal
import MessageLisp.Proofs.Number.Literal
import MessageLisp.Proofs.Number.Single
import MessageLisp.Proofs.Source.Scanning
import MessageLisp.Proofs.Source.Grammar
import MessageLisp.Proofs.Source.Printing
import MessageLisp.Proofs.Semantics.AlikeSessions
import MessageLisp.Proofs.Semantics.Computation
import MessageLisp.Proofs.Semantics.Application
import MessageLisp.Proofs.Semantics.Primitive
import MessageLisp.Proofs.Semantics.Evaluation
import MessageLisp.Proofs.Semantics.Simulation
import MessageLisp.Proofs.Native.Marshalling
import MessageLisp.Proofs.Native.Agreement
import MessageLisp.Proofs.Semantics.Settling
import MessageLisp.Proofs.Semantics.Termination
import MessageLisp.Proofs.Source.Location
import MessageLisp.Proofs.Semantics.Provenance
import MessageLisp.Proofs.Semantics.Layout
import MessageLisp.Proofs.Semantics.Limits
import MessageLisp.Proofs.Semantics.Balance
import MessageLisp.Proofs.Semantics.Origin
import MessageLisp.Proofs.Source.Derivation
import MessageLisp.Proofs.Source.Moving
import MessageLisp.Proofs.Source.Composition
import MessageLisp.Proofs.Source.Misfit
import MessageLisp.Proofs.Source.Filler
import MessageLisp.Proofs.Environment
import MessageLisp.Proofs.Hierarchy
import MessageLisp.Proofs.Semantics.References
import MessageLisp.Proofs.Semantics.Change
import MessageLisp.Proofs.Semantics.Conduct
import MessageLisp.Proofs.Semantics.Inspection
import MessageLisp.Proofs.Semantics.Orderly
import MessageLisp.Proofs.Semantics.Safety
import MessageLisp.Proofs.Semantics.Ownership
import MessageLisp.Proofs.Lineage
import MessageLisp.Proofs.Assignment
import MessageLisp.Proofs.Inheritance
import MessageLisp.Proofs.Semantics.Installation
import MessageLisp.Proofs.Semantics.Fields
import MessageLisp.Proofs.Semantics.Keywords
import MessageLisp.Proofs.Number.Integer
import MessageLisp.Proofs.Semantics.Dispatch
import MessageLisp.Proofs.Semantics.Arithmetic
import MessageLisp.Proofs.Native.Coercion
import MessageLisp.Proofs.Semantics.Handling
import MessageLisp.Proofs.Semantics.Extension
import MessageLisp.Proofs.Semantics.Decoding
import MessageLisp.Proofs.Semantics.Parameters
import MessageLisp.Proofs.Semantics.Receiver
import MessageLisp.Proofs.Semantics.SuperSends
import MessageLisp.Proofs.Semantics.Looping
import MessageLisp.Proofs.Prototype
import MessageLisp.Proofs.Native.EntryPoint
import MessageLisp.Proofs.Source.Diagnosis
import MessageLisp.Proofs.Source.Positions
import MessageLisp.Proofs.Source.Lexing
import MessageLisp.Proofs.Number.Numeral
import MessageLisp.Proofs.Source.IntegerLiteral
import MessageLisp.Proofs.DepthLimit
