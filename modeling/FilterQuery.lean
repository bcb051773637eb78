import FilterQuery.Text.Printable
import FilterQuery.Text.Quoted
import FilterQuery.Operator
import FilterQuery.Policy.Basic
import FilterQuery.Value.Basic
import FilterQuery.Value.Spelling
import FilterQuery.Value.Number
import FilterQuery.Value.Same
import FilterQuery.Pointer
import FilterQuery.Target.Basic
import FilterQuery.Notice
import FilterQuery.Fault
import FilterQuery.Value.Members
import FilterQuery.Target.Reading
import FilterQuery.Pattern
import FilterQuery.Policy.Settings
import FilterQuery.Resolver
import FilterQuery.Query.Basic
import FilterQuery.Query.Document
import FilterQuery.Query.ValueKeys
import FilterQuery.Clause.Operand
import FilterQuery.Clause.Fragment
import FilterQuery.Clause.Basic
import FilterQuery.Filter
import FilterQuery.Draft
import FilterQuery.Proofs.Checks
import FilterQuery.Proofs.Walk
import FilterQuery.Proofs.Verdict
import FilterQuery.Proofs.Compilation
import FilterQuery.Proofs.Meaning
import FilterQuery.Proofs.Documents
import FilterQuery.Proofs.Keys
import FilterQuery.Proofs.Mentions
import FilterQuery.Proofs.Respelling
import FilterQuery.Proofs.Pointers
import FilterQuery.Proofs.Entries
import FilterQuery.Proofs.Wildcards
import FilterQuery.Proofs.Decoding
import FilterQuery.Proofs.Drafts
import FilterQuery.Proofs.Leaves
import FilterQuery.Proofs.Trees
import FilterQuery.Proofs.Scripts
import FilterQuery.Proofs.Shapes
import FilterQuery.Proofs.Drafted
import FilterQuery.Proofs.Literals
import FilterQuery.Proofs.Parts
import FilterQuery.Proofs.Cuts
import FilterQuery.Proofs.Reversal
import FilterQuery.Proofs.Naming
import FilterQuery.Proofs.Selection
import FilterQuery.Proofs.Recording
import FilterQuery.Proofs.Complements
import FilterQuery.Proofs.Dispatch
import FilterQuery.Proofs.PointerGrammar
import FilterQuery.Proofs.Replacement
import FilterQuery.Proofs.Settings
