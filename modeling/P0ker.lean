import P0ker.Lib.Machine
import P0ker.Lib.Async
import P0ker.Lib.DocStore
import P0ker.Lib.Reservation
import P0ker.Lib.Utf8
import P0ker.Dart.Text
import P0ker.Dart.DateTime
import P0ker.Firebase
import P0ker.Pages.Login
import P0ker.Registration.Basic
import P0ker.Registration.Uniqueness
import P0ker.Registration.Profile
import P0ker.Pages.RootPage
import P0ker.AuthGate
import P0ker.GateSafety
import P0ker.Pages.Common
import P0ker.Pages.NewGroup
import P0ker.Pages.NewGame
import P0ker.Writes
import P0ker.Allocation
import P0ker.Groups.Creation
import P0ker.Groups.Mirror
import P0ker.Groups.Pointer
import P0ker.Games.Allocation
import P0ker.Games.Creation
import P0ker.Games.Form
import P0ker.Games.Records
import P0ker.Games.Loop
import P0ker.CheckedIds
import P0ker.Registration.Credentials
import P0ker.Registration.Failure
import P0ker.Atomicity
import P0ker.Pages.UserSearch
import P0ker.Search.AddFriend
import P0ker.Search.Usernames
import P0ker.Pages.Friends
import P0ker.Search.Listing
import P0ker.Pages.BottomNav
import P0ker.Search.Query
import P0ker.Groups.Members
import P0ker.Pages.GroupFlow
import P0ker.Groups.Handover
import P0ker.Pages.GamePage
import P0ker.Pages.Together
import P0ker.Schema
import P0ker.Paths
import P0ker.Disposed
import P0ker.Pages.New
import P0ker.Pages.MyApp
import P0ker.Navigation
import P0ker.Moves
import P0ker.Pages.Asking
import P0ker.Composition
import P0ker.Identity
import P0ker.Profiles
import P0ker.Lib.SortedBy
import P0ker.Lib.PathOrder
import P0ker.Firestore.Model
import P0ker.Firestore.MutationBatch
import P0ker.Firestore.MutationQueue
import P0ker.Firestore.MemoryMutationQueue
import P0ker.Firestore.LocalDocumentsView
import P0ker.Firestore.LocalStore
import P0ker.Firestore.Release
