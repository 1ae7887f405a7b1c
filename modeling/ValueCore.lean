import ValueCore.Error
import ValueCore.Function.Arity
import ValueCore.Function.Comparator
import ValueCore.Function.Dispatch
import ValueCore.Function.Invoke
import ValueCore.Function.Search
import ValueCore.Function.Sort
import ValueCore.Hash.Combine
import ValueCore.Hash.Murmur
import ValueCore.Keyword.Basic
import ValueCore.Keyword.Table
import ValueCore.Number.Basic
import ValueCore.Number.Bits
import ValueCore.Number.Double
import ValueCore.Number.Ratio
import ValueCore.Number.Rounding
import ValueCore.Number.Shortest
import ValueCore.Proofs.Matching
import ValueCore.Proofs.Number.DoubleValue
import ValueCore.Proofs.Number.Point
import ValueCore.Proofs.Text.UnitOrder
import ValueCore.Proofs.Value.Alike
import ValueCore.Proofs.Value.Content
import ValueCore.Proofs.Value.Copy
import ValueCore.Proofs.Value.Equivalence
import ValueCore.Proofs.Value.Even
import ValueCore.Proofs.Value.LeafOrder
import ValueCore.Proofs.Value.Layout
import ValueCore.Proofs.Value.Memory
import ValueCore.Proofs.Value.Order
import ValueCore.Proofs.Value.Parts
import ValueCore.Proofs.Value.Rebuilt
import ValueCore.Proofs.Value.Search
import ValueCore.Settings
import ValueCore.Symbol
import ValueCore.Text.Munged
import ValueCore.Text.Quoted
import ValueCore.Text.Units
import ValueCore.Text.Unseen
import ValueCore.Value.Basic
import ValueCore.Value.Build
import ValueCore.Value.Draft
import ValueCore.Value.Equality
import ValueCore.Value.Equivalence
import ValueCore.Value.Hash
import ValueCore.Value.Kind
import ValueCore.Value.Metadata
import ValueCore.Value.Objects
import ValueCore.Value.Order
import ValueCore.Value.Place
import ValueCore.Value.Print
import ValueCore.Value.Table
import ValueCore.Weak.Cache
import ValueCore.Weak.Queue
import ValueCore.Proofs.Weak.Cache
import ValueCore.Proofs.Weak.Interference
import ValueCore.Keyword.Session
import ValueCore.Proofs.Keyword.Interned
import ValueCore.Proofs.Keyword.Garbage
import ValueCore.Proofs.Value.Table
import ValueCore.Proofs.Value.Strategy
import ValueCore.Proofs.Function.Outcome
import ValueCore.Proofs.Function.Sort
import ValueCore.Proofs.Function.Decoration
import ValueCore.Function.CallSite
import ValueCore.Proofs.Function.CallSite
import ValueCore.Proofs.Function.Failure
import ValueCore.Proofs.Number.Exact
import ValueCore.Proofs.Text.Munged
import ValueCore.Proofs.Function.Alongside
import ValueCore.Proofs.Function.Search
import ValueCore.Proofs.Function.Readings
import ValueCore.Proofs.Function.Population
import ValueCore.Proofs.Text.SymbolText
import ValueCore.Proofs.Value.HostSequence
import ValueCore.Proofs.Value.Fraction
import ValueCore.Proofs.Hash.Bytes
import ValueCore.Proofs.Text.PointOrder
import ValueCore.Proofs.Function.Comparisons
import ValueCore.Proofs.Number.Narrow
import ValueCore.Proofs.Text.Delimited
import ValueCore.Proofs.Value.Abridged
import ValueCore.Proofs.Number.LowestTerms
import ValueCore.Proofs.Value.Metadata
import ValueCore.Proofs.Hash.Lossless
