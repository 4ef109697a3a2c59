import VariantSets.BitSet.Family
import VariantSets.Session
import VariantSets.TokenSet.Cursor
import VariantSets.TokenSet.Family
import VariantSets.Proofs.Bitmap
import VariantSets.Proofs.MemberSet
import VariantSets.Proofs.Simulation
import VariantSets.Proofs.Walk
import VariantSets.Proofs.BitSet.Marks
import VariantSets.Proofs.BitSet.Members
import VariantSets.Proofs.BitSet.Cursor
import VariantSets.Proofs.TokenSet.Algebra
import VariantSets.Proofs.TokenSet.Validity
import VariantSets.Proofs.TokenSet.Loops
import VariantSets.Proofs.TokenSet.History
import VariantSets.Proofs.TokenSet.Members
import VariantSets.Proofs.Binary
import VariantSets.Proofs.BitSet.SymbolMap
import VariantSets.Proofs.BitSet.Bounds
import VariantSets.Proofs.TokenSet.Exchange
import VariantSets.Proofs.Json
import VariantSets.Proofs.BitSet.Exchange
import VariantSets.Proofs.BitSet.Widths
import VariantSets.Proofs.Provenance
import VariantSets.Proofs.TokenSet.Faults
import VariantSets.Proofs.Atomicity
import VariantSets.Proofs.BitSet.Primitives
import VariantSets.Proofs.BitSet.Sizes
import VariantSets.Proofs.Complements
import VariantSets.Proofs.TokenSet.Cursor
import VariantSets.Proofs.RoundTrip
import VariantSets.Proofs.Payload
import VariantSets.Proofs.TextForms
