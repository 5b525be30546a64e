import Polyglot.Launch
import Polyglot.Logging
import Polyglot.Main
import Polyglot.Proofs.Names
import Polyglot.Proofs.Placeholder
import Polyglot.Proofs.Reading
import Polyglot.Proofs.Library
import Polyglot.Proofs.Host
import Polyglot.Proofs.Markup
import Polyglot.Proofs.Growing
import Polyglot.Proofs.Document
import Polyglot.Proofs.Characters
import Polyglot.Proofs.Writing
import Polyglot.Proofs.RoundTrip
import Polyglot.Proofs.Share
import Polyglot.Proofs.Views
import Polyglot.Proofs.Resolution
import Polyglot.Proofs.Recording
import Polyglot.Proofs.Notification
import Polyglot.Proofs.Outcome
import Polyglot.Proofs.Description
import Polyglot.Proofs.History
import Polyglot.Proofs.Audit
import Polyglot.Proofs.Serving
import Polyglot.Proofs.Reports
import Polyglot.Proofs.Alike
import Polyglot.Proofs.Watching
import Polyglot.Proofs.Fresh
import Polyglot.Proofs.Discovery
import Polyglot.Proofs.Delivery
import Polyglot.Proofs.Failing
import Polyglot.Proofs.Subscription
import Polyglot.Proofs.Startup
import Polyglot.Proofs.Preference
import Polyglot.Proofs.Launch
import Polyglot.Proofs.Vouching
import Polyglot.Proofs.Verdict
import Polyglot.Proofs.Unread
import Polyglot.Proofs.Regrouping
import Polyglot.Proofs.Blame
import Polyglot.Proofs.Substitution
import Polyglot.Proofs.Spelling
import Polyglot.Proofs.Matching
import Polyglot.Proofs.Returning
import Polyglot.Proofs.Detection
import Polyglot.Proofs.Inventory
import Polyglot.Proofs.Origin
import Polyglot.Proofs.Window
import Polyglot.Proofs.Front
import Polyglot.Proofs.Charset
import Polyglot.Proofs.Encoding
