import Letterform.Bytes.Buffer
import Letterform.Main
import Letterform.Sample.CffFont
import Letterform.Sample.TrueTypeFont
import Letterform.Proofs.Bytes.Reading
import Letterform.Proofs.Charstring.Token
import Letterform.Proofs.Charstring.Stack
import Letterform.Proofs.Charstring.Faults
import Letterform.Proofs.Charstring.Effect
import Letterform.Proofs.Charstring.Run
import Letterform.Proofs.Charstring.Conclusion
import Letterform.Proofs.Charstring.Nesting
import Letterform.Proofs.Charstring.Positions
import Letterform.Proofs.Charstring.Safety
import Letterform.Proofs.Charstring.Shadow
import Letterform.Proofs.Charstring.Inlining
import Letterform.Proofs.Charstring.Expansion
import Letterform.Proofs.Charstring.Contours
import Letterform.Proofs.Charstring.Hints
import Letterform.Proofs.Charstring.Lockstep
import Letterform.Proofs.Charstring.Underneath
import Letterform.Proofs.Charstring.LeadingWidth
import Letterform.Proofs.Cff.Real
import Letterform.Proofs.Cff.DictTokens
import Letterform.Proofs.Cff.DictEntries
import Letterform.Proofs.Cff.DictOrder
import Letterform.Proofs.Cff.Index
import Letterform.Proofs.Cff.Navigation
import Letterform.Proofs.Outline.Reconstruction
import Letterform.Proofs.Session.Transparency
import Letterform.Proofs.TrueType.Flattening
import Letterform.Proofs.TrueType.PackedPoints
import Letterform.Proofs.TrueType.SimpleGlyph
import Letterform.Proofs.TrueType.StoredPoints
import Letterform.Proofs.TrueType.RoundTrip
import Letterform.Proofs.TrueType.ComponentDepth
import Letterform.Proofs.TrueType.ContourEnds
import Letterform.Proofs.TrueType.PointColumns
import Letterform.Proofs.Cmap.SegmentMap
import Letterform.Proofs.Cmap.Selection
import Letterform.Proofs.Charstring.Returns
import Letterform.Proofs.TrueType.StoredComponents
import Letterform.Proofs.TrueType.StoredLocations
import Letterform.Proofs.FontFile.StoredTables
import Letterform.Proofs.Cff.FontSelect
import Letterform.Proofs.Bytes.Places
import Letterform.Proofs.Cmap.GroupMap
import Letterform.Proofs.Cmap.SegmentScan
import Letterform.Proofs.TrueType.Circuit
import Letterform.Proofs.Cff.DictGathering
import Letterform.Proofs.Session.Filters
import Letterform.Proofs.Charstring.StackRequests
import Letterform.Proofs.Charstring.StackRows
import Letterform.Proofs.Number.DecimalText
import Letterform.Proofs.Outline.CompactText
import Letterform.Proofs.Number.FixedRounding
import Letterform.Proofs.Outline.Curves
import Letterform.Proofs.Outline.Bounds
import Letterform.Proofs.Session.Extents
import Letterform.Proofs.Bytes.Stretches
import Letterform.Proofs.TrueType.ComponentRecords
