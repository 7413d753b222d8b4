import LetsChat.MessageCopies
import LetsChat.MessageIds
import LetsChat.Routing
import LetsChat.OfflineSync
import LetsChat.Registration
import LetsChat.FriendAnswers
import LetsChat.Acceptance
import LetsChat.Friendship
import LetsChat.FriendsOnly
import LetsChat.Gateway.FrameBounds
import LetsChat.Gateway.LengthField
import LetsChat.Gateway.Replies
import LetsChat.Gateway.SessionMap
import LetsChat.Gateway.SessionOwner
import LetsChat.Gateway.Identity
import LetsChat.CommitOrder
import LetsChat.Endpoint
import LetsChat.FriendReplies
import LetsChat.HttpGet
import LetsChat.MessageHistory
import LetsChat.ReadReplies
import LetsChat.RedisKeys
import LetsChat.UploadParameters
import LetsChat.Pool.Capacity
import LetsChat.Pool.DrainLoop
import LetsChat.Pool.IdleWait
import LetsChat.Pool.Lifetime
import LetsChat.Gateway.HttpApi
import LetsChat.EndToEnd.Safety
import LetsChat.EndToEnd.ReplyOrder
import LetsChat.EndToEnd.Accounts
import LetsChat.EndToEnd.Friends
import LetsChat.LogicServer.Quitting
import LetsChat.LogicServer.Refinement
import LetsChat.Serializability
import LetsChat.LaterCalls
