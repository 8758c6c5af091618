import Trickster.Msgp.Wire
import Trickster.Msgp.Append
import Trickster.Msgp.Read
import Trickster.Msgp.Skip
import Trickster.Msgp.Reader
import Trickster.Msgp.Locality
import Trickster.Msgp.Accepts
import Trickster.Timeseries.FieldDefinition
import Trickster.Timeseries.EntryOrder
import Trickster.Timeseries.StreamDecode
import Trickster.Timeseries.RoundTrip
import Trickster.Timeseries.WellFormed
import Trickster.Timeseries.ErrorPaths
import Trickster.Timeseries.Framing
import Trickster.Timeseries.Reuse
import Trickster.Byterange.Normalize
import Trickster.Byterange.Delta
import Trickster.Engines.Document
import Trickster.Engines.Cache
import Trickster.Engines.Store
import Trickster.Engines.Coverage
import Trickster.Engines.Reads
import Trickster.Engines.WriteRead
import Trickster.Engines.Runs
import Trickster.Engines.Interleave
