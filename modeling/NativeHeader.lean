import NativeHeader.Json.Compact
import NativeHeader.Main
import NativeHeader.Session
import NativeHeader.Proofs.Header.Acceptance
import NativeHeader.Proofs.Header.Constants
import NativeHeader.Proofs.Header.Order
import NativeHeader.Proofs.Header.Converters
import NativeHeader.Proofs.Header.Selectors
import NativeHeader.Proofs.Json.Document
import NativeHeader.Proofs.Run
import NativeHeader.Proofs.Search
import NativeHeader.Proofs.Session
import NativeHeader.Proofs.Struct.Agreement
import NativeHeader.Proofs.Json.Reading
import NativeHeader.Proofs.Schema.File
import NativeHeader.Proofs.Json.Compact
import NativeHeader.Proofs.Schema.Union
import NativeHeader.Proofs.Template
import NativeHeader.Proofs.Header.Declaration
import NativeHeader.Proofs.Schema.Alike
import NativeHeader.Proofs.Struct.Names
import NativeHeader.Proofs.Schema.Erasure
import NativeHeader.Proofs.Header.Erasure
