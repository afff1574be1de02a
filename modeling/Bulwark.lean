import Bulwark.Configuration.Document
import Bulwark.Deployment
import Bulwark.Records
import Bulwark.Store.Position
import Bulwark.Proofs.Bucket.Admission
import Bulwark.Proofs.Limiter.Expiry
import Bulwark.Proofs.Quantity.Fraction
import Bulwark.Proofs.Revocation.History
import Bulwark.Proofs.Revocation.Masking
import Bulwark.Proofs.Store.Gate
import Bulwark.Proofs.Store.Visible
import Bulwark.Proofs.Decimal.Magnitude
import Bulwark.Proofs.Recovery.Attempts
import Bulwark.Proofs.Recovery.Wrap
import Bulwark.Proofs.Recovery.Subscriptions
import Bulwark.Proofs.Recovery.Stream
import Bulwark.Proofs.Store.Scan
import Bulwark.Proofs.Store.Counting
import Bulwark.Proofs.Limiter.Decisions
import Bulwark.Proofs.Limiter.Tally
import Bulwark.Proofs.Limiter.Shared
import Bulwark.Proofs.Limiter.Moves
import Bulwark.Proofs.Limiter.Conservation
import Bulwark.Proofs.Limiter.Schedule
import Bulwark.Proofs.Limiter.Isolation
import Bulwark.Proofs.Limiter.Mirror
import Bulwark.Proofs.Breaker.Run
import Bulwark.Proofs.Breaker.Trials
import Bulwark.Proofs.Store.Expiry
import Bulwark.Proofs.Store.Stepping
import Bulwark.Proofs.Limiter.Fate
import Bulwark.Proofs.Store.Alike
import Bulwark.Proofs.Store.Border
import Bulwark.Proofs.Limiter.Confined
import Bulwark.Proofs.Revocation.Confined
import Bulwark.Proofs.Deployment.Turns
import Bulwark.Proofs.Deployment.Parts
import Bulwark.Proofs.Deployment.Erasure
import Bulwark.Proofs.Deployment.Toggle
import Bulwark.Proofs.Bucket.Polling
import Bulwark.Proofs.Quantity.Extended
import Bulwark.Proofs.Bucket.Healing
import Bulwark.Proofs.Halt
import Bulwark.Proofs.Accounts.Occurrence
import Bulwark.Proofs.Accounts.Limiter
import Bulwark.Proofs.Accounts.Recovery
import Bulwark.Proofs.Store.Gone
import Bulwark.Proofs.Accounts.Revocation
import Bulwark.Proofs.Accounts.Run
import Bulwark.Proofs.Limiter.Passage
import Bulwark.Proofs.Breaker.Outage
import Bulwark.Proofs.Limiter.Outage
import Bulwark.Proofs.Breaker.Readmission
import Bulwark.Proofs.Recovery.Backoff
import Bulwark.Proofs.Decimal.Rounding
import Bulwark.Proofs.Recovery.Jitter
import Bulwark.Proofs.Store.Batch
import Bulwark.Proofs.Store.Failure
import Bulwark.Proofs.Store.Deadline
import Bulwark.Proofs.Store.Walk
import Bulwark.Proofs.Revocation.Sequence
import Bulwark.Proofs.Revocation.Sweep
import Bulwark.Proofs.Revocation.Persistence
import Bulwark.Proofs.Breaker.Phases
import Bulwark.Proofs.Revocation.Enquiry
import Bulwark.Revocation.Listing
import Bulwark.Proofs.Revocation.Holdings
import Bulwark.Proofs.Revocation.Listing
import Bulwark.Revocation.Batch
import Bulwark.Proofs.Revocation.Writes
import Bulwark.Proofs.Revocation.Batch
import Bulwark.Proofs.Revocation.Mask
