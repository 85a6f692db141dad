import GenerationalCache.Builder
import GenerationalCache.Distributed.Adapter
import GenerationalCache.Distributed.Operations
import GenerationalCache.Json.ConfigText
import GenerationalCache.Json.Writer
import GenerationalCache.Local.Operations
import GenerationalCache.Proofs.Slots
import GenerationalCache.Scenario.Setup
import GenerationalCache.Scenario.Timed
import GenerationalCache.Snapshot
import GenerationalCache.Proofs.Residents
import GenerationalCache.Proofs.Visits
import GenerationalCache.Proofs.Usage
import GenerationalCache.Proofs.OneTable
import GenerationalCache.Proofs.Ages
import GenerationalCache.Proofs.Serving
import GenerationalCache.Proofs.Departures
import GenerationalCache.Proofs.Listeners
import GenerationalCache.Proofs.SessionSteps
import GenerationalCache.Proofs.SessionRuns
import GenerationalCache.Proofs.Capacity
import GenerationalCache.Proofs.Recency
import GenerationalCache.Proofs.Counting
import GenerationalCache.Proofs.Conversation
import GenerationalCache.Proofs.Connecting
import GenerationalCache.Proofs.Opening
import GenerationalCache.Proofs.DistributedRuns
import GenerationalCache.Proofs.Courses
import GenerationalCache.Proofs.Books
import GenerationalCache.Proofs.Transparency
import GenerationalCache.Proofs.Custody
import GenerationalCache.Proofs.Hearing
import GenerationalCache.Proofs.RoundTrip
import GenerationalCache.Proofs.Hosting
import GenerationalCache.Proofs.Agreement
import GenerationalCache.Proofs.LastWrite
import GenerationalCache.Proofs.SelfDelimiting
import GenerationalCache.Proofs.Contents
import GenerationalCache.Proofs.Truncation
import GenerationalCache.Proofs.Invalidation
import GenerationalCache.Proofs.Racing
import GenerationalCache.Proofs.Timekeeping
import GenerationalCache.Proofs.Lifetime
import GenerationalCache.Proofs.Pacing
import GenerationalCache.Proofs.Stopping
import GenerationalCache.Proofs.Audience
import GenerationalCache.Proofs.MakingRoom
import GenerationalCache.Proofs.Removals
import GenerationalCache.Proofs.Revocation
import GenerationalCache.Proofs.Clearing
import GenerationalCache.Proofs.Resuming
import GenerationalCache.Proofs.Accepting
import GenerationalCache.Proofs.Normalising
import GenerationalCache.Proofs.TextBytes
import GenerationalCache.Proofs.Spans
import GenerationalCache.Proofs.Sums
import GenerationalCache.Proofs.ExactTimeouts
import GenerationalCache.Proofs.AcceptedTimeouts
