import IeltsHub.RealtimeReplay
import IeltsHub.PlayOnce
import IeltsHub.SectionClock
import IeltsHub.ContentAuthorization
import IeltsHub.CallbackInertness
import IeltsHub.PaidMeansPaid
import IeltsHub.OneGrant
import IeltsHub.SpendOnce
import IeltsHub.AtLeastOnce
import IeltsHub.DraftLocks
import IeltsHub.ApprovedContent
import IeltsHub.AttemptLimit
import IeltsHub.ContestLifecycle
import IeltsHub.ContestCharges
import IeltsHub.CodeSingleUse
import IeltsHub.RosterInvariants
import IeltsHub.IdempotentReplay
import IeltsHub.HonestBrowser
import IeltsHub.OutboxServer
import IeltsHub.EveryBlank
import IeltsHub.TiebreakKeys
import IeltsHub.CardinalsDenote
import IeltsHub.CountedOnce
import IeltsHub.ProgressRefreshes
import IeltsHub.EntitlementBundles
import IeltsHub.RangeServing
import IeltsHub.Highlights
import IeltsHub.ReviewMarking
import IeltsHub.ImportCounts
import IeltsHub.SelectionMarks
import IeltsHub.AnsweredSlots
import IeltsHub.GatewayFrames
import IeltsHub.KeyFixMarks
import IeltsHub.OutboxAlarms
import IeltsHub.SweepProgress
import IeltsHub.SlotListing
import IeltsHub.SlotCapacity
import IeltsHub.ImpactCounts
import IeltsHub.PayloadParts
import IeltsHub.SeatLicences
import IeltsHub.QueuePlaces
import IeltsHub.KeyRoundTrip
import IeltsHub.GateTotality
import IeltsHub.PresentedBlanks
import IeltsHub.SectionOrder
import IeltsHub.OptionBank
import IeltsHub.SharingList
import IeltsHub.StreamSafety
import IeltsHub.GrantSoundness
import IeltsHub.QuietHours
