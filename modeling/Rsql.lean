import Rsql.Go
import Rsql.Msgp.Encode
import Rsql.Msgp.Reader
import Rsql.Msgp.RoundTrip
import Rsql.Msgp.Narrow
import Rsql.Msgp.Maps
import Rsql.Msgp.Writer
import Rsql.Msgp.Doomed
import Rsql.Rsqlib.Field
import Rsql.Rsqlib.Session
import Rsql.Rsqlib.MwLock
import Rsql.Rsqlib.Connect
import Rsql.Rsqlib.Decode
import Rsql.Rsqlib.ErrorRecord
import Rsql.Rsqlib.Padding
import Rsql.Rsqlib.Close
import Rsql.Drv.Batch
import Rsql.Drv.Loop
import Rsql.Drv.Messages
import Rsql.Drv.Response
import Rsql.Drv.Cursor
import Rsql.Drv.Pause
import Rsql.Drv.Calls
import Rsql.Drv.Strings
import Rsql.Drv.Runes
import Rsql.Drv.SQLpart
import Rsql.Drv.Template
import Rsql.Drv.Literal
import Rsql.Drv.Scan
import Rsql.Drv.ConnString
import Rsql.Drv.Getters
import Rsql.Drv.Records
import Rsql.Drv.SQLtext
import Rsql.Drv.Values
import Rsql.Drv.ScanAll
